import Mangling.Proofs.Signature.Rendered

/-! What holds of every token of a successful scan. -/

namespace Mangling

/-- A scanned name is not empty, and scanned brackets hold the pieces between their commas. -/
def Token.IsScanned : Token → Prop
  | .name content => content ≠ []
  | .templateArgs content items => items = commaPieces content
  | .params content items => items = commaPieces content
  -- The other tokens hold nothing.
  | _ => True

/-- Scanned tokens have the member word among them only where a scope has been read. -/
structure AreScanned (inScope : Bool) (tokens : List Token) : Prop where
  each : ∀ token ∈ tokens, token.IsScanned
  member : .const ∈ tokens → inScope = true ∨ .scope ∈ tokens

/-- A well-formed token is a scanned one. -/
theorem Token.IsWellFormed.isScanned {token : Token} (formed : token.IsWellFormed) :
    token.IsScanned := by
  cases token with
  | name content =>
    have spelled : IsNameContent content := formed
    obtain ⟨char, member, _⟩ := spelled.run.2.1
    exact List.ne_nil_of_mem member
  | templateArgs content items => exact formed.2
  | params content items => exact formed
  | scope | const | stop => trivial

/-- The tokens of a signature are scanned, and have the member word only beside a scope. -/
theorem areScanned_scanSignature {signature : Text} {tokens : List Token}
    (scanned : (scanSignature signature).result = .ok tokens) : AreScanned false tokens := by
  obtain ⟨divided, formed, _, rfl⟩ := exists_signature_of_scanSignature scanned
  obtain ⟨each, path, ending, split, isPath, isEnding⟩ := formed.shaped
  refine { each := fun token member => (each token member).isScanned, member := ?_ }
  rw [split, List.mem_append, List.mem_append]
  rintro (member | member)
  · -- The path has no member word.
    simpa [Token.kind] using isPath.kinds _ member
  · cases isEnding with
    | stop | params => simp at member
    | member nested => exact nested.imp_right Or.inl

end Mangling
