import Mangling.Text.Basic

/-! The fundamental types: their spellings and their type codes. -/

namespace Mangling

/-- The fundamental types. -/
inductive Builtin where
  | void
  | short
  | int
  | long
  | longLong
  | unsignedShort
  | unsignedInt
  | unsignedLong
  | unsignedLongLong
  | float
  | double
  | longDouble
  | bool
  | char
  | signedChar
  | unsignedChar
  | wideChar
  | char16
  | char32
  | nullptr
  | int128
  | unsignedInt128
  | float128
  | ellipsis
  deriving DecidableEq

/-- Every fundamental type. -/
def Builtin.all : List Builtin :=
  [.void, .short, .int, .long, .longLong, .unsignedShort, .unsignedInt, .unsignedLong,
    .unsignedLongLong, .float, .double, .longDouble, .bool, .char, .signedChar, .unsignedChar,
    .wideChar, .char16, .char32, .nullptr, .int128, .unsignedInt128, .float128, .ellipsis]

/-- The type code of each fundamental type. -/
def Builtin.code : Builtin → Text
  | .void => ['v']
  | .short => ['s']
  | .int => ['i']
  | .long => ['l']
  | .longLong => ['x']
  | .unsignedShort => ['t']
  | .unsignedInt => ['j']
  | .unsignedLong => ['m']
  | .unsignedLongLong => ['y']
  | .float => ['f']
  | .double => ['d']
  | .longDouble => ['e']
  | .bool => ['b']
  | .char => ['c']
  | .signedChar => ['a']
  | .unsignedChar => ['h']
  | .wideChar => ['w']
  | .char16 => ['D', 's']
  | .char32 => ['D', 'i']
  | .nullptr => ['D', 'n']
  | .int128 => ['n']
  | .unsignedInt128 => ['o']
  | .float128 => ['g']
  | .ellipsis => ['z']

/-- The canonical spelling of each fundamental type. -/
def Builtin.spelling : Builtin → Text
  | .void => "void".toList
  | .short => "short".toList
  | .int => "int".toList
  | .long => "long".toList
  | .longLong => "long long".toList
  | .unsignedShort => "unsigned short".toList
  | .unsignedInt => "unsigned int".toList
  | .unsignedLong => "unsigned long".toList
  | .unsignedLongLong => "unsigned long long".toList
  | .float => "float".toList
  | .double => "double".toList
  | .longDouble => "long double".toList
  | .bool => "bool".toList
  | .char => "char".toList
  | .signedChar => "signed char".toList
  | .unsignedChar => "unsigned char".toList
  | .wideChar => "wchar_t".toList
  | .char16 => "char16_t".toList
  | .char32 => "char32_t".toList
  | .nullptr => "decltype(nullptr)".toList
  | .int128 => "__int128".toList
  | .unsignedInt128 => "unsigned __int128".toList
  | .float128 => "__float128".toList
  | .ellipsis => "...".toList

/-- The one other name of a fundamental type that is read as it. -/
def nullptrAlias : Text := "std::nullptr_t".toList

/-- Every accepted spelling with its type: the canonical ones, and the alias. -/
def builtinSpellings : List (Text × Builtin) :=
  -- No spelling occurs twice, so the order does not matter.
  (nullptrAlias, .nullptr) :: Builtin.all.map fun builtin => (builtin.spelling, builtin)

/-- The fundamental type with exactly this spelling. -/
def Builtin.ofSpelling? (spelling : Text) : Option Builtin :=
  builtinSpellings.lookup spelling

/-- Every canonical spelling is read as its type. -/
theorem Builtin.ofSpelling_spelling (builtin : Builtin) :
    Builtin.ofSpelling? builtin.spelling = some builtin := by
  -- Each type is found in the list of all of them.
  cases builtin <;> decide

/-- What is read as a fundamental type is its canonical spelling or the alias. -/
theorem Builtin.spelling_of_ofSpelling {spelling : Text} {builtin : Builtin}
    (found : Builtin.ofSpelling? spelling = some builtin) :
    spelling = builtin.spelling ∨ (spelling = nullptrAlias ∧ builtin = .nullptr) := by
  -- A look-up only finds pairs that are in the list.
  have member : (spelling, builtin) ∈ builtinSpellings := by
    obtain ⟨before, after, same, _⟩ := List.lookup_eq_some_iff.mp found
    simp [same]
  -- The alias comes first in that list, and every other pair holds a canonical spelling.
  simp only [builtinSpellings, List.mem_cons, List.mem_map, Prod.mk.injEq] at member
  rcases member with ⟨spelled, typed⟩ | ⟨other, _, spelled, typed⟩
  · exact Or.inr ⟨spelled, typed⟩
  · subst typed
    exact Or.inl spelled.symm

end Mangling
