import Mangling.Proofs.Signature.Grammar
import Mangling.Proofs.Symbol.Backed

/-! The table of a symbol is coherent: its entries differ, and each is built on earlier ones. -/

namespace Mangling

/-- No entry of a coherent table is there twice or is a bare fundamental type. A qualified type stands
behind the type that it qualifies, unless that one is fundamental, and a nested name stands behind the
path around its last component. -/
structure Table.IsCoherent (table : Table) : Prop where
  distinct : table.entries.Nodup
  unbuilt : ∀ kind : Builtin, kind.code ∉ table.entries
  wrapped : ∀ (index : Nat) (qualifiers base : Text),
    table.entries[index]? = some (qualifiers ++ base) → qualifiers ≠ [] →
    (∀ code ∈ qualifiers, code = 'K' ∨ code = 'P') →
    (∃ earlier < index, table.entries[earlier]? = some (qualifiers.tail ++ base)) ∨
      (qualifiers.length = 1 ∧ ∃ kind : Builtin, base = kind.code)
  nested : ∀ (index : Nat) (names : Text), table.entries[index]? = some ('N' :: names) →
    ∃ components, 2 ≤ components.length ∧ (∀ component ∈ components, IsComponent component) ∧
      'N' :: names = scopeEncoding components ∧
      ∃ earlier < index, table.entries[earlier]? = some (scopeEncoding components.dropLast)

/-- A table whose entries are backed is coherent. -/
theorem AreBacked.isCoherent {table : Table} (backed : AreBacked [] table.entries) :
    table.IsCoherent := by
  have each : ∀ {index : Nat} {entry : Text}, table.entries[index]? = some entry →
      IsBacked (table.entries.take index) entry := fun located => backed.isBacked located
  -- What is in front of an index is what stands at a smaller one.
  have located_of_mem : ∀ {index : Nat} {entry : Text}, entry ∈ table.entries.take index →
      ∃ earlier < index, table.entries[earlier]? = some entry := by
    intro index entry member
    obtain ⟨earlier, located⟩ := List.getElem?_of_mem member
    rw [List.getElem?_take] at located
    split at located
    next before => exact ⟨earlier, before, located⟩
    next => simp at located
  refine { distinct := by simpa using backed.nodup List.nodup_nil, unbuilt := ?_, wrapped := ?_,
           nested := ?_ }
  · intro kind member
    obtain ⟨index, located⟩ := List.getElem?_of_mem member
    exact (each located).unbuilt kind rfl
  · intro index qualifiers base located nonempty coded
    obtain ⟨code, codes, rfl⟩ := List.exists_cons_of_ne_nil nonempty
    rcases (each located).wrapped code (codes ++ base) rfl (coded code (List.mem_cons_self ..)) with
      member | ⟨kind, fundamental⟩
    · exact Or.inl (located_of_mem member)
    · -- A fundamental type does not begin with a qualifier, so there was only one.
      right
      cases codes with
      | nil => exact ⟨rfl, kind, fundamental⟩
      | cons next others => exact absurd fundamental.symm (kind.code_ne_cons (coded next (by simp)) _)
  · intro index names located
    obtain ⟨components, several, built, spelled, member⟩ := (each located).nested names rfl
    exact ⟨components, several, built, spelled, located_of_mem member⟩

/-- A draft between two tokens: it has remembered its scopes, which are components, and a component or
nothing is pending. -/
structure Draft.IsOrderly (draft : Draft) : Prop where
  remembered : draft.table.entries = scopeEncodings [] draft.scopes
  scopes : ∀ scope ∈ draft.scopes, IsComponent scope
  pending : draft.component = [] ∨ IsComponent draft.component

/-- The entries of an orderly draft are backed. -/
theorem Draft.IsOrderly.areBacked {draft : Draft} (orderly : draft.IsOrderly) :
    AreBacked [] draft.table.entries := by
  rw [orderly.remembered]
  exact areBacked_scopeEncodings orderly.scopes (Or.inl rfl) (by simp)

/-- A fresh draft is orderly. -/
theorem Draft.isOrderly_fresh (symbol : Text) (isConst : Bool) :
    Draft.IsOrderly { symbol, isConst } :=
  { remembered := rfl, scopes := by simp, pending := Or.inl rfl }

/-- A component can be added as a scope. -/
theorem Draft.IsOrderly.addScope {draft : Draft} (orderly : draft.IsOrderly) {scope : Text}
    (built : IsComponent scope) : (draft.addScope scope).IsOrderly where
  remembered := by
    simp [Draft.addScope, Table.extended, orderly.remembered, scopeEncodings_append,
      scopeEncodings_cons]
  scopes := List.forall_mem_append.mpr ⟨orderly.scopes, by simpa using built⟩
  pending := orderly.pending

/-- Components can be added as scopes one after the other. -/
theorem Draft.IsOrderly.addScopes {draft : Draft} (orderly : draft.IsOrderly) {scopes : List Text}
    (built : ∀ scope ∈ scopes, IsComponent scope) :
    (scopes.foldl Draft.addScope draft).IsOrderly := by
  induction scopes generalizing draft with
  | nil => exact orderly
  | cons scope scopes ih =>
    obtain ⟨first, later⟩ := List.forall_mem_cons.mp built
    exact ih (orderly.addScope first) later

/-- The table is coherent once any scopes have been added and any parameters been written. -/
theorem Draft.isCoherent_encodeAll (symbol : Text) {scopes : List Text}
    (built : ∀ scope ∈ scopes, IsComponent scope) {parameters : List Parameter}
    (spelled : ∀ parameter ∈ parameters, Parameter.ofSpelling parameter.spelling = .ok parameter)
    (based : ∀ parameter ∈ parameters, parameter.base ≠ []) :
    ((scopes.foldl Draft.addScope { symbol }).table.encodeAll parameters).2.IsCoherent := by
  have added := ((isOrderly_fresh symbol false).addScopes built).areBacked
  exact (Table.areBacked_encodeAll added spelled based).isCoherent

/-- Scopes with template arguments and parameters of all sorts leave a coherent table. -/
theorem Draft.isCoherent_encodeAll_shared :
    let scopes := [[{ name := "a".toList }],
      [{ name := "map".toList, arguments := some "K, int".toList }, { name := "entry".toList }]].map
        (List.flatMap Component.encoding)
    let parameters := ["a::b::c*", "const char**", "a::b", "T", "T const*", "char*"].map
      fun spelling => Parameter.spelled spelling.toList
    let table := ((scopes.foldl Draft.addScope { symbol := [] }).table.encodeAll parameters).2
    table.entries = ["1a", "N1a3mapI1KiE5entryE", "N1a1bE", "N1a1b1cE", "PN1a1b1cE", "Kc", "PKc",
      "PPKc", "1T", "Pc"].map String.toList ∧ table.IsCoherent := by
  refine ⟨by decide +kernel, isCoherent_encodeAll _ ?_ ?_ ?_⟩
  · refine List.forall_mem_map.mpr fun parts member => ⟨parts, ?_, ?_, rfl⟩
    · revert parts
      decide
    · revert parts
      decide
  · exact List.forall_mem_map.mpr fun spelling _ => Parameter.ofSpelling_eq spelling.toList
  · decide +kernel

/-- A name with or without template arguments makes a component of what is pending. -/
theorem Draft.IsOrderly.append {draft : Draft} (orderly : draft.IsOrderly) {component : Component}
    (named : component.name ≠ []) : (draft.append component.encoding).IsOrderly := by
  refine { remembered := orderly.remembered, scopes := orderly.scopes, pending := Or.inr ?_ }
  rcases orderly.pending with none | ⟨parts, _, each, spelled⟩
  · exact ⟨[component], by simp, by simpa using named, by simp [Draft.append, none]⟩
  · refine ⟨parts ++ [component], by simp, ?_, by simp [Draft.append, spelled]⟩
    exact List.forall_mem_append.mpr ⟨each, by simpa using named⟩

/-- A separator makes a scope of the component that is pending. -/
theorem Draft.IsOrderly.enterScope {draft : Draft} (orderly : draft.IsOrderly) :
    draft.enterScope.IsOrderly := by
  have same : draft.openNested.table = draft.table ∧ draft.openNested.scopes = draft.scopes ∧
      draft.openNested.component = draft.component := by
    unfold openNested
    split
    · exact ⟨rfl, rfl, rfl⟩
    · dsimp only
      split <;> exact ⟨rfl, rfl, rfl⟩
  obtain ⟨table, scopes, component⟩ := same
  have flushed : draft.openNested.flush.2.IsOrderly :=
    { remembered := by simpa [flush, emit, table, scopes] using orderly.remembered
      scopes := by simpa [flush, emit, scopes] using orderly.scopes
      pending := Or.inl rfl }
  have entered : draft.enterScope =
      if draft.component.isEmpty then draft.openNested.flush.2
      else draft.openNested.flush.2.addScope draft.component := by
    rw [Draft.enterScope, ← component]
    rfl
  rw [entered]
  split
  · exact flushed
  next spelled => exact flushed.addScope (orderly.pending.resolve_left (by simpa using spelled))

/-- A run in front of other tokens leaves an orderly draft to them. -/
theorem Draft.IsOrderly.exists_behindRun {draft : Draft} (orderly : draft.IsOrderly) (run : Text) :
    ∃ after : Draft, after.IsOrderly ∧
      ∀ tokens, draft.assemble (runTokens run ++ tokens) = after.assemble tokens := by
  rw [runTokens]
  split
  · exact ⟨draft, orderly, fun _ => rfl⟩
  next spelled =>
    have named : runName run ≠ [] := by simpa using spelled
    exact ⟨_, @append draft orderly { name := runName run } named,
      draft.assemble_component { name := runName run }⟩

/-- Items keep the entries backed, with or without a type. -/
theorem Draft.areBacked_writeItems {draft : Draft} (backed : AreBacked [] draft.table.entries)
    (items : List Text) : AreBacked [] (draft.writeItems items).2.table.entries := by
  induction items generalizing draft with
  | nil => exact backed
  | cons item items ih =>
    rw [writeItems]
    split
    -- A fault would leave the draft as it was.
    next fault _ => exact backed
    next parameter read =>
      split
      next => exact @ih draft.noteEmpty backed
      next based =>
        have coded := Parameter.coded_of_ofSpelling read
        exact @ih (draft.writeParameter parameter)
          (Table.areBacked_encode backed (by simpa [Parameter.isEmpty] using based) coded)

/-- The tail of a signature leaves a coherent table. -/
theorem Draft.IsOrderly.isCoherent_tail {draft : Draft} (orderly : draft.IsOrderly) (tail : Tail) :
    (draft.assemble tail.tokens).2.table.IsCoherent := by
  -- Neither the name nor the mark behind it has a part in the table.
  have unchanged : draft.flush.2.close.table = draft.table := by
    unfold close
    split <;> rfl
  have backed : AreBacked [] draft.flush.2.close.table.entries := unchanged ▸ orderly.areBacked
  have listed : ∀ content items tokens,
      (draft.assemble (.params content items :: tokens)).2.table.IsCoherent := by
    intro content items tokens
    have written : AreBacked [] (draft.flush.2.close.writeParams content items).2.table.entries := by
      rw [writeParams]
      split
      · exact backed
      · exact areBacked_writeItems backed items
    rw [assemble]
    split <;> next wrote => exact AreBacked.isCoherent (by simpa [wrote] using written)
  cases tail with
  | nothing =>
    rw [Tail.tokens, assemble]
    split
    · exact backed.isCoherent
    · exact AreBacked.isCoherent orderly.areBacked
  | params content blanks => exact listed _ _ _
  | member content between behind => exact listed _ _ _

/-- The tokens of a well-formed signature leave a coherent table. -/
theorem Draft.IsOrderly.isCoherent_assemble {draft : Draft} (orderly : draft.IsOrderly)
    {inScope : Bool} {signature : Signature} (formed : signature.IsWellFormed inScope) :
    (draft.assemble signature.tokens).2.table.IsCoherent := by
  -- Each part at the front leaves an orderly draft to what is behind it.
  induction signature using Signature.frontInduction generalizing draft inScope with
  | ended run tail =>
    obtain ⟨after, still, step⟩ := orderly.exists_behindRun run
    rw [Signature.tokens_ended, step]
    exact still.isCoherent_tail tail
  | nested run rest ih =>
    obtain ⟨after, still, step⟩ := orderly.exists_behindRun run
    rw [Signature.tokens_nested, step, assemble]
    exact ih still.enterScope (Signature.isWellFormed_nested.mp formed).2
  | bracketed run content rest ih =>
    obtain ⟨⟨_, named, _⟩, later⟩ := Signature.isWellFormed_bracketed.mp formed
    have spelled : runName run ≠ [] := fun none => runName_eq_nil_iff.mp none named
    rw [Signature.tokens_bracketed]
    have step := draft.assemble_component { name := runName run, arguments := some content } rest.tokens
    rw [Component.tokens] at step
    simp only [List.cons_append, List.nil_append] at step
    rw [step]
    exact ih (orderly.append spelled) later

/-- Whatever signature is scanned, its assembly leaves a coherent table. -/
theorem isCoherent_of_scanSignature {signature : Text} {tokens : List Token}
    (scanned : (scanSignature signature).result = .ok tokens) (isConst : Bool) :
    (Draft.assemble { symbol := signature, isConst } tokens).2.table.IsCoherent := by
  obtain ⟨divided, formed, _, rfl⟩ := exists_signature_of_scanSignature scanned
  exact (Draft.isOrderly_fresh signature isConst).isCoherent_assemble formed

end Mangling
