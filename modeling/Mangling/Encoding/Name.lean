import Mangling.Encoding.Builtin
import Mangling.Text.Numeral

/-! Encodings of names and of types without qualifiers. -/

namespace Mangling

/-- A source name is its length in characters, then the name itself. -/
def sourceName (name : Text) : Text :=
  -- The length tells where the name ends, so a name may hold anything.
  decimal name.length ++ name

/-- A nested name holds its source names between two marks. -/
def nestedName (names : List Text) : Text :=
  -- No names make an empty nested name.
  'N' :: (names.flatMap sourceName ++ ['E'])

/-- A scope path is remembered as a source name when it is one name, and as a nested name
otherwise. -/
def scopePath (names : List Text) : Text :=
  match names with
  -- The outermost scope needs no marks around it.
  | [name] => sourceName name
  | _ => nestedName names

/-- A type without qualifiers is a type code or a source name; no spelling, no encoding. -/
def plainType (spelling : Text) : Text :=
  if spelling.isEmpty then []
  else
    -- Any spelling that names no fundamental type is taken for the name of a class.
    match Builtin.ofSpelling? spelling with
    | some builtin => builtin.code
    | none => sourceName spelling

/-- A path of one name is a source name. -/
theorem scopePath_singleton (name : Text) : scopePath [name] = sourceName name := rfl

/-- A path of two names or more is a nested name. -/
theorem scopePath_cons_cons (outer inner : Text) (names : List Text) :
    scopePath (outer :: inner :: names) = nestedName (outer :: inner :: names) := rfl

/-- A source name begins with the digits of its length. -/
theorem sourceName_eq_cons (name : Text) :
    ∃ digit rest, sourceName name = digit :: rest ∧ digit.isDigit = true := by
  -- A numeral has at least one digit.
  cases digits : decimal name.length with
  | nil => exact absurd digits (decimal_ne_nil _)
  | cons digit others =>
    refine ⟨digit, others ++ name, by simp [sourceName, digits], ?_⟩
    exact isDigit_of_mem_decimal (digits ▸ List.mem_cons_self ..)

/-- A digit is none of the marks. -/
theorem ne_of_isDigit {digit mark : Char} (isDigit : digit.isDigit = true)
    (other : mark.isDigit = false) : digit ≠ mark := by
  intro same
  rw [same, other] at isDigit
  exact absurd isDigit (by decide)

/-- A mark that is no digit begins no name. -/
theorem mark_cons_ne_sourceName {mark : Char} (letter : mark.isDigit = false)
    (name rest text : Text) : mark :: rest ≠ sourceName name ++ text := by
  intro equal
  obtain ⟨digit, others, spelled, isDigit⟩ := sourceName_eq_cons name
  rw [spelled] at equal
  exact ne_of_isDigit isDigit letter (List.cons.inj equal).1.symm

end Mangling
