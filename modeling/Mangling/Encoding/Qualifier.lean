import Mangling.Fault

/-! Qualifiers, which wrap a type. -/

namespace Mangling

/-- The qualifiers of a type. -/
inductive Qualifier where
  | const
  | volatile
  | pointer
  deriving DecidableEq

/-- Every qualifier. -/
def Qualifier.all : List Qualifier :=
  [.const, .volatile, .pointer]

/-- The code of each qualifier. -/
def Qualifier.code : Qualifier → Char
  | .const => 'K'
  | .volatile => 'V'
  | .pointer => 'P'

/-- The qualifier that a code names. -/
def Qualifier.ofCode (code : Text) : Except Fault Qualifier :=
  -- A code is one letter, and a longer text names nothing.
  match Qualifier.all.find? ([·.code] == code) with
  | some qualifier => .ok qualifier
  | none => .error (.unknownLabel .qualifiers code)

/-- Constness and volatility qualify the object itself, a pointer makes another type of it. -/
def Qualifier.isCv : Qualifier → Bool
  | .const => true
  | .volatile => true
  | .pointer => false

/-- Every qualifier is found under its code. -/
theorem Qualifier.ofCode_code (qualifier : Qualifier) :
    Qualifier.ofCode [qualifier.code] = .ok qualifier := by
  cases qualifier <;> rfl

end Mangling
