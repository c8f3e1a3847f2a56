import Mangling.Encoding.Parameter

/-! What the base of a parameter names, and which names can be told from their lengths. -/

namespace Mangling

/-- What a base can name. -/
inductive BaseType where
  /-- A fundamental type. -/
  | builtin (kind : Builtin)
  /-- A class on its own. -/
  | source (name : Text)
  /-- A class inside scopes, as the names on its path. -/
  | nested (names : List Text)
  deriving DecidableEq

/-- The full encoding of what a base names. -/
def BaseType.encoding : BaseType → Text
  | .builtin kind => kind.code
  | .source name => sourceName name
  | .nested names => nestedName names

/-- What the base of a parameter names. -/
def Parameter.baseType (parameter : Parameter) : BaseType :=
  match Builtin.ofSpelling? parameter.base with
  | some kind => .builtin kind
  | none =>
    -- With fewer than two names the spelling is one name, separators included.
    if 1 < parameter.scopeNames.length then .nested parameter.scopeNames
    else .source parameter.base

/-- The type of a parameter: its qualifiers, and what its base names. -/
def Parameter.type (parameter : Parameter) : Text × BaseType :=
  (parameter.qualifiers, parameter.baseType)

/-- The full encoding of a type. -/
def encodingOf (type : Text × BaseType) : Text :=
  type.1 ++ type.2.encoding

/-- Whether a text begins with an ASCII digit. -/
def startsWithDigit (text : Text) : Bool :=
  -- The empty text begins with nothing.
  text.head?.any Char.isDigit

/-- A name can be told from the length in front of it. -/
def IsName (text : Text) : Prop :=
  -- Behind the digits of the length no further digit may follow.
  text ≠ [] ∧ startsWithDigit text = false

/-- The names of a base can be told from their lengths. -/
def BaseType.IsReadable : BaseType → Prop
  | .builtin _ => True
  | .source name => IsName name
  -- A path of one name is no nested name.
  | .nested names => 1 < names.length ∧ ∀ name ∈ names, IsName name

/-- A type that can be told from its full encoding. -/
def IsReadableType (type : Text × BaseType) : Prop :=
  (∀ code ∈ type.1, code = 'K' ∨ code = 'P') ∧ type.2.IsReadable

/-- A parameter with a base, with the qualifiers that a spelling can give, and without a digit in
front of any name of a base that is no fundamental type. -/
structure Parameter.IsReadable (parameter : Parameter) : Prop where
  based : parameter.base ≠ []
  coded : ∀ code ∈ parameter.qualifiers, code = 'K' ∨ code = 'P'
  named : parameter.isBuiltin = false →
    ∀ piece ∈ scopePieces parameter.base, startsWithDigit piece = false

/-- Whether a parameter is readable can be decided. -/
instance (parameter : Parameter) : Decidable parameter.IsReadable :=
  -- The codes are gone through one by one, and not all characters.
  have : Decidable (∀ code ∈ parameter.qualifiers, code = 'K' ∨ code = 'P') :=
    List.decidableBAll _ _
  decidable_of_iff
    (parameter.base ≠ [] ∧ (∀ code ∈ parameter.qualifiers, code = 'K' ∨ code = 'P') ∧
      (parameter.isBuiltin = false →
        ∀ piece ∈ scopePieces parameter.base, startsWithDigit piece = false))
    ⟨fun ⟨based, coded, named⟩ => { based, coded, named },
      fun readable => ⟨readable.based, readable.coded, readable.named⟩⟩

/-- The parameter that a spelling describes, which there always is. -/
def Parameter.spelled (spelling : Text) : Parameter :=
  { spelling
    base := baseOf spelling
    -- What is dropped is the constness of the parameter itself.
    qualifiers := (readQualifiers (remnantOf spelling)).dropWhile (· == 'K') }

/-- A code of a fundamental type begins with a letter that begins nothing else in a table. -/
theorem Builtin.exists_head (kind : Builtin) :
    ∃ letter rest, kind.code = letter :: rest ∧ letter.isDigit = false ∧
      letter ≠ 'K' ∧ letter ≠ 'P' ∧ letter ≠ 'N' := by
  cases kind <;> exact ⟨_, _, rfl, by decide, by decide, by decide, by decide⟩

/-- A spelling gives the codes of constness and of pointers only. -/
theorem Parameter.coded_of_ofSpelling {spelling : Text} {parameter : Parameter}
    (read : Parameter.ofSpelling spelling = .ok parameter) :
    ∀ code ∈ parameter.qualifiers, code = 'K' ∨ code = 'P' := by
  -- Dropping codes from the front leaves some of those that were read.
  rw [ofSpelling_eq, Except.ok.injEq] at read
  intro code member
  rw [← read] at member
  exact mem_readQualifiers ((List.dropWhile_sublist _).subset member)

/-- A scoped base is no fundamental type and has a path of two names or more. -/
theorem Parameter.isScoped_iff {parameter : Parameter} :
    parameter.isScoped = true ↔
      parameter.isBuiltin = false ∧ 1 < parameter.scopeNames.length := by
  simp [isScoped]

/-- A base that is no fundamental type has no such spelling. -/
theorem Parameter.ofSpelling_of_isBuiltin {parameter : Parameter}
    (other : parameter.isBuiltin = false) : Builtin.ofSpelling? parameter.base = none := by
  simpa [isBuiltin] using other

/-- A scoped parameter names a path. -/
theorem Parameter.baseType_of_isScoped {parameter : Parameter}
    (nested : parameter.isScoped = true) : parameter.baseType = .nested parameter.scopeNames := by
  obtain ⟨other, long⟩ := isScoped_iff.mp nested
  rw [baseType, ofSpelling_of_isBuiltin other]
  exact if_pos long

/-- A parameter that is not scoped names a fundamental type, or one class. -/
theorem Parameter.baseType_of_not_isScoped {parameter : Parameter}
    (flat : ¬parameter.isScoped = true) :
    (∃ kind, Builtin.ofSpelling? parameter.base = some kind ∧
      parameter.baseType = .builtin kind) ∨
      (parameter.isBuiltin = false ∧ parameter.baseType = .source parameter.base) := by
  unfold baseType
  cases found : Builtin.ofSpelling? parameter.base with
  | some kind => exact Or.inl ⟨kind, rfl, rfl⟩
  | none =>
    -- The count of names alone decides between the two kinds of classes.
    have other : parameter.isBuiltin = false := by simp [isBuiltin, found]
    have short : ¬1 < parameter.scopeNames.length :=
      fun long => flat (isScoped_iff.mpr ⟨other, long⟩)
    exact Or.inr ⟨other, if_neg short⟩

/-- A parameter with a base is encoded as what the base names. -/
theorem Parameter.encodedBase_eq {parameter : Parameter} (based : parameter.base ≠ []) :
    parameter.encodedBase = parameter.baseType.encoding := by
  have spelled : parameter.base.isEmpty = false := by simpa using based
  unfold encodedBase
  by_cases nested : parameter.isScoped = true
  · rw [if_pos nested, baseType_of_isScoped nested, BaseType.encoding]
  · rw [if_neg nested]
    rcases baseType_of_not_isScoped nested with ⟨kind, found, named⟩ | ⟨other, named⟩
    · simp [plainType, spelled, found, named, BaseType.encoding]
    · simp [plainType, spelled, ofSpelling_of_isBuiltin other, named, BaseType.encoding]

/-- A base that is no fundamental type names the names on its path, if there are several of them, and
itself otherwise. -/
theorem Parameter.baseType_of_not_isBuiltin {parameter : Parameter}
    (other : parameter.isBuiltin = false) :
    parameter.baseType =
      if 1 < parameter.scopeNames.length then .nested parameter.scopeNames
      else .source parameter.base := by
  rw [baseType, ofSpelling_of_isBuiltin other]

/-- A base that is no fundamental type is encoded through the names on its path, if there are several of
them, and as one name otherwise, separators included. -/
theorem Parameter.encodedBase_of_not_isBuiltin {parameter : Parameter} (based : parameter.base ≠ [])
    (other : parameter.isBuiltin = false) :
    parameter.encodedBase =
      if 1 < parameter.scopeNames.length then nestedName parameter.scopeNames
      else sourceName parameter.base := by
  rw [encodedBase_eq based, baseType_of_not_isBuiltin other]
  split <;> rfl

/-- A base with names on its path is not empty. -/
theorem Parameter.base_ne_nil_of_scopeNames {parameter : Parameter}
    (named : parameter.scopeNames ≠ []) : parameter.base ≠ [] := by
  intro empty
  have pieces : scopePieces parameter.base = [[]] := by
    rw [empty]
    rfl
  simp [scopeNames, pieces] at named

/-- A path of two names or more has an outermost name and a name inside it. -/
theorem exists_outer_inner {names : List Text} (long : 1 < names.length) :
    ∃ outer inner others, names = outer :: inner :: others := by
  match names with
  | outer :: inner :: others => exact ⟨outer, inner, others, rfl⟩

/-- A text that begins with a digit has a piece that does. -/
theorem exists_digit_piece {text : Text} (digit : startsWithDigit text = true) :
    ∃ piece ∈ scopePieces text, startsWithDigit piece = true := by
  cases text with
  | nil => simp [startsWithDigit] at digit
  | cons char rest =>
    -- A digit is no colon, so it stands in front of the first piece.
    have isDigit : char.isDigit = true := by simpa [startsWithDigit] using digit
    rw [scopePieces_cons (ne_of_isDigit isDigit (by decide))]
    cases pieces : scopePieces rest with
    | nil => exact ⟨[char], by simp [consPiece], digit⟩
    | cons piece others => exact ⟨char :: piece, by simp [consPiece], by simpa [startsWithDigit]⟩

/-- What a readable parameter names is readable. -/
theorem Parameter.IsReadable.baseType {parameter : Parameter} (readable : parameter.IsReadable) :
    parameter.baseType.IsReadable := by
  by_cases nested : parameter.isScoped = true
  · obtain ⟨other, long⟩ := isScoped_iff.mp nested
    rw [baseType_of_isScoped nested]
    -- The names on the path are the pieces that are not empty.
    refine ⟨long, ?_⟩
    intro name member
    obtain ⟨piece, nonempty⟩ := List.mem_filter.mp member
    exact ⟨by simpa using nonempty, readable.named other name piece⟩
  · rcases baseType_of_not_isScoped nested with ⟨kind, _, named⟩ | ⟨other, named⟩
    · rw [named]
      trivial
    · rw [named]
      refine ⟨readable.based, ?_⟩
      cases digit : startsWithDigit parameter.base with
      | false => rfl
      | true =>
        obtain ⟨piece, member, bad⟩ := exists_digit_piece digit
        exact absurd (readable.named other piece member) (by simp [bad])

/-- The full encoding of a parameter is that of its type. -/
theorem Parameter.encodingOf_type {parameter : Parameter} (based : parameter.base ≠ []) :
    encodingOf parameter.type = parameter.encoded := by
  rw [encodingOf, type, encoded, encodedBase_eq based]

/-- The type of a readable parameter is readable. -/
theorem Parameter.IsReadable.type {parameter : Parameter} (readable : parameter.IsReadable) :
    IsReadableType parameter.type :=
  ⟨readable.coded, readable.baseType⟩

end Mangling
