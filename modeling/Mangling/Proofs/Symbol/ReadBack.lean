import Mangling.Proofs.Encoding.BaseType
import Mangling.Symbol.Reader

/-! The readers of names and type codes read back what was written, whatever follows. -/

namespace Mangling

/-- A name is taken whole when every character of it has width one. -/
theorem takeWidth_append {width : Char → Nat} {name : Text}
    (narrow : ∀ char ∈ name, width char = 1) (rest : Text) :
    takeWidth width name.length (name ++ rest) = some (name, rest) := by
  -- Each character takes one off the size.
  induction name with
  | nil => simp [takeWidth]
  | cons char others ih =>
    have single := narrow char (List.mem_cons_self ..)
    have tail := ih fun other member => narrow other (List.mem_cons_of_mem _ member)
    simp [takeWidth, single, tail]

/-- The digits in front of a name are those of its length. -/
theorem span_sourceName {name : Text} (named : IsName name) (rest : Text) :
    (sourceName name ++ rest).takeWhile Char.isDigit = decimal name.length ∧
      (sourceName name ++ rest).dropWhile Char.isDigit = name ++ rest := by
  obtain ⟨nonempty, undigited⟩ := named
  have digits : ∀ char ∈ decimal name.length, char.isDigit = true := fun _ member =>
    isDigit_of_mem_decimal member
  cases name with
  | nil => exact absurd rfl nonempty
  | cons char others =>
    -- The first character of the name stops the run of digits.
    have stop : char.isDigit = false := by simpa [startsWithDigit] using undigited
    rw [sourceName, List.append_assoc, List.takeWhile_append_of_pos digits,
      List.dropWhile_append_of_pos digits]
    simp [stop]

/-- A source name is read back. -/
theorem readSource_sourceName {width : Char → Nat} {name : Text} (named : IsName name)
    (narrow : ∀ char ∈ name, width char = 1) (rest : Text) :
    readSource width (sourceName name ++ rest) = some (name, rest) := by
  -- The length is not zero, because the name is not empty.
  obtain ⟨digits, behind⟩ := span_sourceName named rest
  have positive : name.length ≠ 0 := by simpa using named.1
  rw [readSource, digits, behind, readDecimal_decimal]
  simp only [if_neg positive]
  exact takeWidth_append narrow rest

/-- A name list ends at its mark. -/
theorem readSources_end (width : Char → Nat) (rest : Text) :
    readSources width ('E' :: rest) = some ([], rest) := by
  rw [readSources]
  rfl

/-- The names of a nested name are read back up to its mark. -/
theorem readSources_flatMap {width : Char → Nat} {names : List Text}
    (named : ∀ name ∈ names, IsName name)
    (narrow : ∀ name ∈ names, ∀ char ∈ name, width char = 1) (rest : Text) :
    readSources width (names.flatMap sourceName ++ 'E' :: rest) = some (names, rest) := by
  induction names with
  | nil => exact readSources_end width rest
  | cons name names ih =>
    have first := readSource_sourceName (named name (List.mem_cons_self ..))
      (narrow name (List.mem_cons_self ..)) (names.flatMap sourceName ++ 'E' :: rest)
    have others := ih (fun other member => named other (List.mem_cons_of_mem _ member))
      (fun other member => narrow other (List.mem_cons_of_mem _ member))
    -- A digit in front is not the closing mark.
    obtain ⟨digit, behind, spelled, isDigit⟩ := sourceName_eq_cons name
    have unclosed : (sourceName name ++ (names.flatMap sourceName ++ 'E' :: rest)).head? ≠
        some 'E' := by
      rw [spelled]
      simp only [List.cons_append, List.head?_cons, Ne, Option.some.injEq]
      exact ne_of_isDigit isDigit (by decide)
    rw [List.flatMap_cons, List.append_assoc, readSources, if_neg unclosed]
    split
    next missing => simp [first] at missing
    next found after read =>
      rw [first, Option.some.injEq, Prod.mk.injEq] at read
      obtain ⟨rfl, rfl⟩ := read
      simp [others]

/-- A type code is read back. -/
theorem readBuiltin_code (kind : Builtin) (rest : Text) :
    readBuiltin (kind.code ++ rest) = some (kind, rest) := by
  -- No code is the beginning of another one.
  cases kind <;> rfl

/-- A digit begins no type code. -/
theorem readBuiltin_digit {digit : Char} (isDigit : digit.isDigit = true) (rest : Text) :
    readBuiltin (digit :: rest) = none := by
  rw [readBuiltin, Option.map_eq_none_iff, List.find?_eq_none]
  intro kind _
  -- Every code begins with a letter.
  have apart : ∀ code : Char, code.isDigit = false → (code == digit) = false := by
    intro code letter
    rw [beq_eq_false_iff_ne]
    exact (ne_of_isDigit isDigit letter).symm
  cases kind <;> simp [Builtin.code, List.isPrefixOf, apart]

end Mangling
