import Mangling.Encoding.Name
import Mangling.Encoding.Qualifier
import Mangling.Signature.Token
import Mangling.Text.Blank
import Mangling.Text.Erase

/-! Parameter types: a base, and the qualifiers around it from the outermost inwards. -/

namespace Mangling

/-- A parameter as it was spelled, its base type, and the codes of its qualifiers, outermost
first. -/
structure Parameter where
  spelling : Text
  base : Text
  qualifiers : Text
  deriving DecidableEq

/-- The base is what is left of a spelling without its qualifiers and its superfluous spaces. -/
def baseOf (spelling : Text) : Text :=
  -- Dropping the stars comes second, so a word that only they interrupt stays.
  trimSpaces (collapseSpaces ((eraseFully constWord spelling).filter (· != '*')))

/-- What is left of a spelling without its base. -/
def remnantOf (spelling : Text) : Text :=
  -- The base is looked for as it stands, in the spelling as it was given.
  eraseFully (baseOf spelling) spelling

/-- In a remnant each `c` begins a qualifier of constness and each `*` is a pointer. -/
def qualifierOf (char : Char) : Option Char :=
  -- The letter is taken for the first one of the word, and the other letters are passed over.
  if char == 'c' then some Qualifier.const.code
  else if char == '*' then some Qualifier.pointer.code
  else none

/-- The qualifier codes of a remnant, from its end to its front. -/
def readQualifiers (remnant : Text) : Text :=
  -- The outermost qualifier stands last in a spelling and first in an encoding.
  remnant.reverse.filterMap qualifierOf

/-- The qualifiers of the parameter itself are no part of its type. -/
def dropTopLevel : Text → Except Fault Text
  | [] => .ok []
  | code :: codes =>
    -- Behind the outermost pointer every qualifier counts.
    match Qualifier.ofCode [code] with
    | .error fault => .error fault
    | .ok qualifier => if qualifier.isCv then dropTopLevel codes else .ok (code :: codes)

/-- The parameter that a spelling describes. -/
def Parameter.ofSpelling (spelling : Text) : Except Fault Parameter :=
  -- The spelling is kept beside what was read from it.
  (dropTopLevel (readQualifiers (remnantOf spelling))).map fun qualifiers =>
    { spelling, base := baseOf spelling, qualifiers }

/-- Whether the base is a fundamental type. -/
def Parameter.isBuiltin (parameter : Parameter) : Bool :=
  (Builtin.ofSpelling? parameter.base).isSome

/-- Whether no base is left to encode. -/
def Parameter.isEmpty (parameter : Parameter) : Bool :=
  parameter.base.isEmpty

/-- The names on the path of the base, of which empty ones do not count. -/
def Parameter.scopeNames (parameter : Parameter) : List Text :=
  -- A separator in front of the path, or a doubled one, leaves an empty piece.
  (scopePieces parameter.base).filter fun name => !name.isEmpty

/-- Whether the base is a path of more than one name. -/
def Parameter.isScoped (parameter : Parameter) : Bool :=
  -- One fundamental type has a spelling that looks like a path.
  !parameter.isBuiltin && 1 < parameter.scopeNames.length

/-- A scoped base is encoded as a nested name, so that it can match a scope path. -/
def Parameter.encodedBase (parameter : Parameter) : Text :=
  -- A base with one name left keeps its separators, as part of that name.
  if parameter.isScoped then nestedName parameter.scopeNames else plainType parameter.base

/-- The full encoding, in which nothing refers back. -/
def Parameter.encoded (parameter : Parameter) : Text :=
  parameter.qualifiers ++ parameter.encodedBase

/-- The codes read from a remnant are those of constness and of pointers. -/
theorem mem_readQualifiers {remnant : Text} {code : Char} (member : code ∈ readQualifiers remnant) :
    code = 'K' ∨ code = 'P' := by
  -- Every code comes from one character.
  obtain ⟨char, _, coded⟩ := List.mem_filterMap.mp member
  simp only [qualifierOf] at coded
  split at coded
  · simp only [Option.some.injEq] at coded
    exact Or.inl coded.symm
  · split at coded
    · simp only [Option.some.injEq] at coded
      exact Or.inr coded.symm
    · simp at coded

/-- Codes of constness and of pointers lose the constness in front, and never fail. -/
theorem dropTopLevel_eq {codes : Text} (known : ∀ code ∈ codes, code = 'K' ∨ code = 'P') :
    dropTopLevel codes = .ok (codes.dropWhile (· == 'K')) := by
  -- A pointer ends the run, and constness in front of it is dropped code by code.
  induction codes with
  | nil => rfl
  | cons code codes ih =>
    have rest := ih fun code member => known code (List.mem_cons_of_mem _ member)
    rcases known code (List.mem_cons_self ..) with same | same
    · subst same
      have found : Qualifier.ofCode ['K'] = .ok .const := rfl
      simp [dropTopLevel, found, Qualifier.isCv, rest]
    · subst same
      have found : Qualifier.ofCode ['P'] = .ok .pointer := rfl
      simp [dropTopLevel, found, Qualifier.isCv]

/-- Every spelling describes a parameter. -/
theorem Parameter.ofSpelling_eq (spelling : Text) :
    Parameter.ofSpelling spelling = .ok
      { spelling
        base := baseOf spelling
        qualifiers := (readQualifiers (remnantOf spelling)).dropWhile (· == 'K') } := by
  -- A remnant is read into known codes only.
  rw [Parameter.ofSpelling, dropTopLevel_eq fun _ member => mem_readQualifiers member]
  rfl

end Mangling
