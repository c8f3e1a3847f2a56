import Mangling.Proofs.Signature.Rejected
import Mangling.Proofs.Symbol.Layout

/-! Mangling gives a symbol or rejects its signature, and nothing else ever goes wrong. -/

namespace Mangling

/-- A fault that is a rejection of this signature. -/
def Fault.Rejects (signature : Text) (fault : Fault) : Prop :=
  ∃ rejection, fault = .rejected rejection ∧ rejection.symbol = signature

/-- A scan that, if it fails, rejects its signature. -/
def Scan.FailsFairly (signature : Text) (scan : Scan) : Prop :=
  ∀ fault, scan.result = .error fault → fault.Rejects signature

/-- Every scan accepts its signature or rejects it. -/
theorem Scanner.failsFairly_scanFrom {scanner : Scanner} (ready : scanner.name = []) (text : Text) :
    (scanner.scanFrom text).FailsFairly scanner.symbol := by
  -- What fails has come to a stop, and the fault of a stop is a rejection.
  intro fault failed
  obtain ⟨stop, _, _, rfl⟩ := exists_stop ready failed
  exact ⟨_, rfl, rfl⟩

/-- The token that ends every signature is there. -/
theorem stop_mem_of_scanSignature {signature : Text} {tokens : List Token}
    (scanned : (scanSignature signature).result = .ok tokens) : .stop ∈ tokens := by
  obtain ⟨divided, _, _, rfl⟩ := exists_signature_of_scanSignature scanned
  have last : .stop ∈ divided.tail.tokens := by
    cases divided.tail <;> simp [Tail.tokens]
  exact List.mem_append_right _ (List.mem_append_right _ last)

/-- Tokens that come to their end are assembled into a symbol. -/
theorem Draft.exists_symbol_of_assemble (draft : Draft) {tokens : List Token}
    (ends : .stop ∈ tokens) : ∃ symbol, (draft.assemble tokens).1 = .ok symbol := by
  induction tokens generalizing draft with
  | nil => simp at ends
  | cons token tokens ih =>
    have later : token ≠ .stop → .stop ∈ tokens := by
      intro other
      exact (List.mem_cons.mp ends).resolve_left fun same => other same.symm
    cases token with
    | name content => exact ih _ (later (by simp))
    | scope => exact ih _ (later (by simp))
    | templateArgs content items => exact ih _ (later (by simp))
    | const => exact ih _ (later (by simp))
    | params content items =>
      -- A list is written whatever its items are, because every spelling describes a parameter.
      have written := (draft.flush.2.close.writeParams_eq content items).1
      rw [assemble]
      split
      next after wrote => exact ⟨_, rfl⟩
      next fault after wrote => simp [wrote] at written
    | stop =>
      simp only [assemble]
      split <;> exact ⟨_, rfl⟩

/-- A signature is mangled into a symbol, or it is rejected. -/
theorem mangle_outcome (signature : Text) :
    (∃ symbol, (mangle signature).outcome = .ok symbol) ∨
      ∃ rejection, (mangle signature).outcome = .error (.rejected rejection) ∧
        rejection.symbol = signature := by
  cases scanned : (scanSignature signature).result with
  | error fault =>
    have failed := scanned
    rw [result_scanSignature] at failed
    obtain ⟨rejection, rfl, own⟩ :=
      @Scanner.failsFairly_scanFrom { symbol := signature } rfl signature fault failed
    exact Or.inr ⟨rejection, by simp [mangle, scanned], own⟩
  | ok tokens =>
    left
    obtain ⟨symbol, assembled⟩ := Draft.exists_symbol_of_assemble
      { symbol := signature, isConst := tokens.any (·.kind == .const) }
      (stop_mem_of_scanSignature scanned)
    refine ⟨symbol, ?_⟩
    unfold mangle
    simp only [scanned]
    split
    next fault failed => simp [assembled] at failed
    next other succeeded => rw [← succeeded, assembled]

/-- The only way in which mangling can fail is to reject its signature. So an attempt always has a
result, which holds either the symbol or the rejection and gives back what mangling gave. -/
theorem mangle_fails_fairly (signature : Text) :
    (∀ fault, (mangle signature).outcome = .error fault → fault.Rejects signature) ∧
      ∃ attempt, (tryMangle signature).outcome = .ok attempt ∧
        (attempt.succeeded = true ↔ ∃ symbol, (mangle signature).outcome = .ok symbol) ∧
        attempt.symbol.isSome ≠ attempt.failure.isSome ∧
        attempt.unwrap = (mangle signature).outcome := by
  rcases mangle_outcome signature with ⟨symbol, outcome⟩ | ⟨rejection, outcome, own⟩
  · refine ⟨by simp [outcome], { signature, symbol := some symbol }, by simp [tryMangle, outcome],
      by simp [Attempt.succeeded, outcome], by simp, by simp [Attempt.unwrap, outcome]⟩
  · refine ⟨?_, { signature, failure := some rejection }, by simp [tryMangle, outcome],
      by simp [Attempt.succeeded, outcome], by simp, by simp [Attempt.unwrap, outcome]⟩
    intro fault failed
    rw [outcome, Except.error.injEq] at failed
    exact ⟨rejection, failed.symm, own⟩

end Mangling
