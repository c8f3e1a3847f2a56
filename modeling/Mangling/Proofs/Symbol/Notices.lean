import Mangling.Proofs.Signature.Heading
import Mangling.Proofs.Signature.Scanned
import Mangling.Proofs.Symbol.Accepted

/-! The notices of mangling are told by the text: the spaces of the head, the items without a base, and
at last the symbol. -/

namespace Mangling

/-- The notices that a parameter list is worth, one for each of its items without a base, unless the
whole list is blank. -/
def listNotices (symbol content : Text) (items : List Text) : List Notice :=
  if content.all isBlank then []
  else List.replicate (items.countP fun item => (baseOf item).isEmpty) (.emptyParameter symbol)

/-- The notices that a token is worth once the scan has succeeded. -/
def Token.notices (symbol : Text) : Token → List Notice
  | .params content _ => listNotices symbol content (content.splitOn ',')
  -- Only parameters can lack a type.
  | _ => []

/-- Behind the head of a rejected signature comes what it is rejected at, or a parameter list. -/
theorem Heading.rejected {signature : Text} (heading : Heading signature) {mark : Char} {rest : Text}
    (behind : heading.rest = mark :: rest) (other : mark ≠ '(') :
    ∃ offence char, (scanSignature signature).result =
      .error (.rejected { offence, char, symbol := signature }) := by
  have barred : ∃ offence char, Bars (false || !heading.head.others.isEmpty) heading.head.lastRun mark
      rest offence char := by
    have ends := behind ▸ heading.ends
    cases ends with
    | opened => exact absurd rfl other
    | loneColon _ lone => exact ⟨_, _, .loneColon rest lone⟩
    | unnamed _ unnamed => exact ⟨_, _, .unnamed rest unnamed⟩
    | unterminated _ named free => exact ⟨_, _, .unterminated rest named free⟩
  obtain ⟨offence, char, bars⟩ := barred
  have rejects := @Signature.IsHead.rejects heading.head { symbol := signature } heading.complete rfl
    _ _ _ _ bars
  rw [← behind, heading.written, ← result_scanSignature] at rejects
  exact ⟨offence, char, rejects⟩

/-- Writing items gives a notice for each of those without a base. -/
theorem Draft.notices_writeItems (draft : Draft) (items : List Text) :
    (draft.writeItems items).2.notices =
      draft.notices ++ List.replicate (items.countP fun item => (baseOf item).isEmpty)
        (.emptyParameter draft.symbol) := by
  induction items generalizing draft with
  | nil => simp [writeItems]
  | cons item items ih =>
    have read : Parameter.ofSpelling item = .ok (Parameter.spelled item) :=
      Parameter.ofSpelling_eq item
    have empty : (Parameter.spelled item).isEmpty = (baseOf item).isEmpty := rfl
    rw [writeItems, read]
    simp only [empty]
    cases based : (baseOf item).isEmpty with
    | true => simp [ih, noteEmpty, based, List.replicate_succ]
    | false => simp [ih, writeParameter, emit, based]

/-- Writing a parameter list gives its notices behind those that are there. -/
theorem Draft.notices_writeParams (draft : Draft) (content : Text) (items : List Text) :
    (draft.writeParams content items).2.notices =
      draft.notices ++ listNotices draft.symbol content items := by
  rw [writeParams, listNotices, isEmpty_trimBlanks]
  split
  · simp [emit]
  · exact draft.notices_writeItems items

/-- A draft that has read a path and closes it has given no notice, and keeps its symbol. -/
theorem Draft.notices_close_behindPath (symbol : Text) (isConst : Bool) (scopes : List Text)
    (last : Text) :
    (behindPath symbol isConst scopes last).flush.2.close.notices = [] ∧
      (behindPath symbol isConst scopes last).flush.2.close.symbol = symbol := by
  cases scopes <;> exact ⟨rfl, rfl⟩

/-- Assembling the tokens of a signature gives the notices that they are worth. -/
theorem Draft.notices_assemble {signature : Text} {tokens : List Token}
    (scanned : (scanSignature signature).result = .ok tokens) (symbol : Text) (isConst : Bool) :
    (Draft.assemble { symbol, isConst } tokens).2.notices = tokens.flatMap (Token.notices symbol) := by
  have items := (areScanned_scanSignature scanned).each
  obtain ⟨path, ending, rfl, isPath, isEnding⟩ := exists_path_of_scanSignature scanned
  obtain ⟨scopes, last, -, behind⟩ := exists_behindPath symbol isConst isPath.isFinal_eq_false
  obtain ⟨quiet, own⟩ := notices_close_behindPath symbol isConst scopes last
  -- Nothing on a path is worth a notice.
  have silent : path.flatMap (Token.notices symbol) = [] := by
    rw [List.flatMap_eq_nil_iff]
    intro token member
    have going := isPath.isFinal_eq_false token member
    cases token with
    | params => simp [Token.isFinal] at going
    | name | scope | templateArgs | const | stop => rfl
  have listed : ∀ content items later, .params content items ∈ path ++ ending →
      ((behindPath symbol isConst scopes last).assemble (.params content items :: later)).2.notices =
        listNotices symbol content (content.splitOn ',') := by
    intro content pieces later member
    have split : pieces = content.splitOn ',' := items _ member
    rw [assemble_params, notices_writeParams, quiet, own, split, List.nil_append]
  rw [behind, List.flatMap_append, silent]
  cases isEnding with
  | stop =>
    simp only [assemble]
    split
    · exact quiet
    · rfl
  | params content items => simp [listed, Token.notices]
  | member nested content items => simp [listed, Token.notices]

end Mangling
