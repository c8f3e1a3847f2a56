import Mangling.Text.Basic

/-! Numerals: decimal without leading zeros, and hexadecimal of a fixed width. -/

namespace Mangling

/-- The decimal numeral of a number. -/
def decimal (value : Nat) : Text :=
  Nat.toDigits 10 value

/-- The decimal numeral of an integer, with a minus sign in front of a negative one. -/
def signedDecimal : Int → Text
  | .ofNat value => decimal value
  -- The absolute value is one more than what the constructor holds.
  | .negSucc value => '-' :: decimal (value + 1)

/-- The number that decimal digits spell, leading zeros allowed. -/
def readDecimal (digits : Text) : Nat :=
  -- No digits spell zero.
  Nat.ofDigitChars 10 digits 0

/-- The hexadecimal numeral of a number, filled up with zeros to a width. -/
def hexadecimal (width value : Nat) : Text :=
  -- A numeral wider than that is left as it is.
  let digits := Nat.toDigits 16 value
  List.replicate (width - digits.length) '0' ++ digits

/-- A decimal numeral reads back as its number. -/
theorem readDecimal_decimal (value : Nat) : readDecimal (decimal value) = value :=
  Nat.ofDigitChars_ten_toDigits

/-- A decimal numeral has at least one digit. -/
theorem decimal_ne_nil (value : Nat) : decimal value ≠ [] :=
  Nat.toDigits_ne_nil

/-- A decimal numeral is made of digits. -/
theorem isDigit_of_mem_decimal {value : Nat} {char : Char} (member : char ∈ decimal value) :
    char.isDigit = true :=
  Nat.isDigit_of_mem_toDigits (by decide) (by decide) member

/-- A greater number has no fewer digits. -/
theorem length_decimal_le {less more : Nat} (ordered : less ≤ more) :
    (decimal less).length ≤ (decimal more).length := by
  -- So many digits are enough for every number up to the greater one.
  have enough := (Nat.length_toDigits_le_iff (by decide : 1 < 10)
    (List.length_pos_iff.mpr (decimal_ne_nil more))).mp (Nat.le_refl _)
  exact (Nat.length_toDigits_le_iff (by decide) (List.length_pos_iff.mpr (decimal_ne_nil more))).mpr
    (Nat.lt_of_le_of_lt ordered enough)

/-- Only zero has a decimal numeral that begins with a zero. -/
theorem decimal_ne_zero_cons {value : Nat} (positive : 0 < value) (rest : Text) :
    decimal value ≠ '0' :: rest := by
  induction value using Nat.strongRecOn generalizing rest with
  | _ value ih =>
    unfold decimal at ih ⊢
    rcases Nat.lt_or_ge value 10 with single | more
    · rw [Nat.toDigits_of_lt_base single]
      intro same
      rw [List.cons.injEq, Nat.digitChar_eq_zero] at same
      omega
    · -- The digits in front of the last one are those of a smaller number.
      rw [Nat.toDigits_of_base_le (by decide) more]
      intro same
      cases front : Nat.toDigits 10 (value / 10) with
      | nil => exact Nat.toDigits_ne_nil front
      | cons digit digits =>
        rw [front, List.cons_append, List.cons.injEq] at same
        exact ih (value / 10) (by omega) (by omega) digits (same.1 ▸ front)

end Mangling
