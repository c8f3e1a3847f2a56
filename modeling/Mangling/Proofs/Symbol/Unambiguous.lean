import Mangling.Proofs.Symbol.Determined
import Mangling.Proofs.Symbol.Innermost
import Mangling.Proofs.Symbol.TemplateArguments

/-! Equal encodings are those of equal types or equal paths, so a table never answers with a
different one. -/

namespace Mangling

/-- A parameter that some spelling describes, with a base, and without a digit in front of any name
of a base that is no fundamental type. -/
structure Parameter.IsDescribed (parameter : Parameter) : Prop where
  described : ∃ spelling, Parameter.ofSpelling spelling = .ok parameter
  based : parameter.base ≠ []
  named : parameter.isBuiltin = false →
    ∀ piece ∈ scopePieces parameter.base, startsWithDigit piece = false

/-- The two spellings of the type of the null pointer. -/
def IsNullptr (base : Text) : Prop :=
  base = nullptrAlias ∨ base = Builtin.nullptr.spelling

/-- Bases are the same but for the two spellings of the type of the null pointer, and for the empty
pieces of a path. -/
def Parameter.SameBase (first second : Parameter) : Prop :=
  first.base = second.base ∨ (IsNullptr first.base ∧ IsNullptr second.base) ∨
    (first.isScoped = true ∧ second.isScoped = true ∧ first.scopeNames = second.scopeNames)

/-- The names on the path to a class, which is its base as it stands where that is no path of
several names. -/
def Parameter.typePath (parameter : Parameter) : List Text :=
  if parameter.isScoped then parameter.scopeNames else [parameter.base]

/-- The type inside so many of the outermost qualifiers. -/
def Parameter.inside (split : Nat) (parameter : Parameter) : Parameter :=
  { parameter with qualifiers := parameter.qualifiers.drop split }

/-- A name without template arguments. -/
def Component.plain (name : Text) : Component :=
  { name }

/-- No name begins with a digit. -/
def AreUndigited (names : List Text) : Prop :=
  ∀ name ∈ names, startsWithDigit name = false

/-- At a place of a table stands the full encoding of a described parameter. -/
def Table.HoldsType (table : Table) (index : Nat) (parameter : Parameter) : Prop :=
  parameter.IsDescribed ∧ table.entries[index]? = some parameter.encoded

/-- At a place of a table stands the path to a scope, of which no name begins with a digit. -/
def Table.HoldsPath (table : Table) (index : Nat) (components : List Component) : Prop :=
  components ≠ [] ∧ AreUndigited (components.map Component.name) ∧
    -- The scopes of a signature are remembered with their template arguments.
    table.entries[index]? = some (scopeEncoding (components.map Component.encoding))

/-- A described parameter is readable. -/
theorem Parameter.IsDescribed.readable {parameter : Parameter} (described : parameter.IsDescribed) :
    parameter.IsReadable := by
  obtain ⟨spelling, read⟩ := described.described
  exact { based := described.based, coded := coded_of_ofSpelling read, named := described.named }

/-- Inside some of its qualifiers a readable parameter is readable. -/
theorem Parameter.IsReadable.inside {parameter : Parameter} (readable : parameter.IsReadable)
    (split : Nat) : (parameter.inside split).IsReadable :=
  { based := readable.based
    coded := fun code member => readable.coded code (List.mem_of_mem_drop member)
    named := readable.named }

/-- Both spellings of the type of the null pointer are read as it, and no other spelling is. -/
theorem isNullptr_iff {base : Text} :
    IsNullptr base ↔ Builtin.ofSpelling? base = some .nullptr := by
  constructor
  · rintro (rfl | rfl) <;> decide
  · intro found
    exact (Builtin.spelling_of_ofSpelling found).elim Or.inr fun spelled => Or.inl spelled.1

/-- Spellings of one fundamental type are the same, or both are of the type of the null pointer. -/
theorem Builtin.eq_or_isNullptr {base other : Text} {kind : Builtin}
    (found : Builtin.ofSpelling? base = some kind) (also : Builtin.ofSpelling? other = some kind) :
    base = other ∨ (IsNullptr base ∧ IsNullptr other) := by
  by_cases null : kind = .nullptr
  · subst null
    exact Or.inr ⟨isNullptr_iff.mpr found, isNullptr_iff.mpr also⟩
  · -- Any other type has its canonical spelling only.
    have canonical : ∀ {base}, Builtin.ofSpelling? base = some kind → base = kind.spelling :=
      fun found => (spelling_of_ofSpelling found).resolve_right fun spelled => null spelled.2
    exact Or.inl ((canonical found).trans (canonical also).symm)

/-- Bases name the same thing exactly when they are the same. -/
theorem Parameter.baseType_eq_iff {first second : Parameter} :
    first.baseType = second.baseType ↔ first.SameBase second := by
  constructor
  · intro same
    -- What a base names tells whether it is scoped, so both are or neither is.
    by_cases nested : second.isScoped = true
    · have also := (isScoped_eq same).trans nested
      rw [baseType_of_isScoped nested, baseType_of_isScoped also, BaseType.nested.injEq] at same
      exact Or.inr (Or.inr ⟨also, nested, same⟩)
    · have flat : ¬first.isScoped = true := by rwa [isScoped_eq same]
      rcases baseType_of_not_isScoped flat with ⟨kind, found, type⟩ | ⟨_, type⟩
      · rcases baseType_of_not_isScoped nested with ⟨other, also, otherType⟩ | ⟨_, otherType⟩
        · rw [type, otherType, BaseType.builtin.injEq] at same
          exact (Builtin.eq_or_isNullptr found (same ▸ also)).imp_right Or.inl
        · simp [type, otherType] at same
      · rcases baseType_of_not_isScoped nested with ⟨_, _, otherType⟩ | ⟨_, otherType⟩
        · simp [type, otherType] at same
        · rw [type, otherType, BaseType.source.injEq] at same
          exact Or.inl same
  · rintro (same | ⟨null, also⟩ | ⟨nested, also, same⟩)
    · unfold baseType scopeNames
      rw [same]
    · simp [baseType, isNullptr_iff.mp null, isNullptr_iff.mp also]
    · rw [baseType_of_isScoped nested, baseType_of_isScoped also, same]

/-- Readable parameters have equal encodings exactly when they have equal qualifiers and the same
base. -/
theorem Parameter.encoded_eq_iff {first second : Parameter} (readable : first.IsReadable)
    (also : second.IsReadable) :
    first.encoded = second.encoded ↔
      first.qualifiers = second.qualifiers ∧ first.SameBase second := by
  have types : first.type = second.type ↔
      first.qualifiers = second.qualifiers ∧ first.SameBase second := by
    rw [type, type, Prod.mk.injEq, baseType_eq_iff]
  rw [← types]
  refine ⟨encoded_injective readable also, fun same => ?_⟩
  rw [← encodingOf_type readable.based, ← encodingOf_type also.based, same]

/-- A text without a digit in front, the empty one included, overlaps no other one. -/
theorem not_overlaps_of_undigited {short : Text} (undigited : startsWithDigit short = false)
    (long : Text) : ¬Overlaps short long := by
  intro overlaps
  cases short with
  | cons char rest =>
    have digit := (overlaps.leads (List.cons_ne_nil char rest)).1
    rw [undigited] at digit
    exact absurd digit (by decide)
  | nil =>
    -- The length of the empty text is a zero, with which no other length begins.
    obtain ⟨positive, overlap⟩ := overlaps
    have zero : sourceName [] = ['0'] := by decide
    obtain ⟨digit, digits, front⟩ := List.exists_cons_of_ne_nil (decimal_ne_nil long.length)
    have same : digit = '0' := by
      rw [zero, front, List.cons_prefix_cons, List.cons_prefix_cons] at overlap
      exact overlap.elim And.left fun inside => inside.1.symm
    exact decimal_ne_zero_cons positive digits (same ▸ front)

/-- Behind names and a closing mark nothing opens template arguments. -/
theorem isUnopened_flatMap_sourceName (names : List Text) (after : Text) :
    IsUnopened (names.flatMap sourceName ++ 'E' :: after) := by
  cases names with
  | nil => simp [IsUnopened]
  | cons name names =>
    obtain ⟨digit, rest, spelled, isDigit⟩ := sourceName_eq_cons name
    simpa [IsUnopened, spelled] using ne_of_isDigit isDigit (by decide)

/-- Components are told from the names with which they share their text up to a closing mark, and none
of them has template arguments. -/
theorem Component.flatMap_encoding_eq {components : List Component} {names : List Text}
    (undigited : AreUndigited (components.map Component.name)) (also : AreUndigited names)
    {behind after : Text}
    (same : components.flatMap Component.encoding ++ 'E' :: behind =
      names.flatMap sourceName ++ 'E' :: after) :
    components = names.map Component.plain := by
  -- Neither list can end before the other, because the closing mark begins no name.
  induction components generalizing names with
  | nil =>
    cases names with
    | nil => rfl
    | cons name names =>
      rw [List.flatMap_cons, List.append_assoc] at same
      exact absurd same (mark_cons_ne_sourceName (by decide) _ _ _)
  | cons component components ih =>
    cases names with
    | nil =>
      rw [List.flatMap_cons, encoding, List.append_assoc, List.append_assoc] at same
      exact absurd same.symm (mark_cons_ne_sourceName (by decide) _ _ _)
    | cons name names =>
      rw [List.map_cons, AreUndigited, List.forall_mem_cons] at undigited
      rw [AreUndigited, List.forall_mem_cons] at also
      rw [List.flatMap_cons, List.flatMap_cons, encoding, List.append_assoc, List.append_assoc,
        List.append_assoc] at same
      obtain ⟨equal, rest⟩ := sourceName_append_inj (not_overlaps_of_undigited undigited.1 _)
        (not_overlaps_of_undigited also.1 _) same
      obtain ⟨text, arguments⟩ := component
      cases arguments with
      | some content =>
        -- Behind a name without arguments comes another name, or the closing mark.
        have unopened := isUnopened_flatMap_sourceName names after
        rw [← rest] at unopened
        exact absurd rfl unopened
      | none => rw [ih undigited.2 also.2 rest, List.map_cons, plain, ← equal]

/-- Components are told from the names whose path they are remembered as. -/
theorem scopeEncoding_eq_scopePath {components : List Component} {names : List Text}
    (nonempty : components ≠ []) (named : names ≠ [])
    (undigited : AreUndigited (components.map Component.name)) (also : AreUndigited names)
    (same : scopeEncoding (components.map Component.encoding) = scopePath names) :
    components = names.map Component.plain := by
  match components, names with
  | [component], [name] =>
    refine @Component.flatMap_encoding_eq _ [name] undigited also [] [] ?_
    have alone : component.encoding = sourceName name := same
    simp [alone]
  | [component], outer :: inner :: names =>
    -- One name has no marks around it.
    have marked : 'N' :: ((outer :: inner :: names).flatMap sourceName ++ ['E']) =
        component.encoding := same.symm
    exact absurd marked (mark_cons_ne_sourceName (by decide) _ _ _)
  | outer :: inner :: components, [name] =>
    have marked : 'N' :: (((outer :: inner :: components).map Component.encoding).flatten ++ ['E']) =
        sourceName name ++ [] := by rw [List.append_nil]; exact same
    exact absurd marked (mark_cons_ne_sourceName (by decide) _ _ _)
  | outer :: inner :: components, first :: second :: names =>
    have inside : (outer :: inner :: components).flatMap Component.encoding ++ ['E'] =
        (first :: second :: names).flatMap sourceName ++ ['E'] := (List.cons.inj same).2
    exact Component.flatMap_encoding_eq undigited also inside

/-- Names without template arguments are the names of their components. -/
theorem map_name_plain (names : List Text) :
    (names.map Component.plain).map Component.name = names := by
  simp [Component.plain, Function.comp_def]

/-- Names without template arguments are remembered as their path. -/
theorem scopeEncoding_plain (names : List Text) :
    scopeEncoding ((names.map Component.plain).map Component.encoding) = scopePath names := by
  have encoded : (names.map Component.plain).map Component.encoding = names.map sourceName := by
    simp [Component.plain, Component.encoding]
  rw [encoded, scopeEncoding_sourceNames]

/-- A path of names without digits in front is told by its encoding. -/
theorem scopePath_injective {names others : List Text} (nonempty : names ≠ []) (named : others ≠ [])
    (undigited : AreUndigited names) (also : AreUndigited others)
    (same : scopePath names = scopePath others) : names = others := by
  have equal := @scopeEncoding_eq_scopePath (names.map Component.plain) others (by simpa) named
    (by rwa [map_name_plain]) also (by rw [scopeEncoding_plain, same])
  rw [← map_name_plain names, equal, map_name_plain]

/-- The encoding of a class is that of the path to it, of which no name begins with a digit. -/
theorem Parameter.IsReadable.typePath {parameter : Parameter} (readable : parameter.IsReadable)
    (other : parameter.isBuiltin = false) :
    parameter.encodedBase = scopePath parameter.typePath ∧ parameter.typePath ≠ [] ∧
      AreUndigited parameter.typePath := by
  have type := readable.baseType
  -- A path of several names is the whole of them, and any other base is one name.
  unfold Parameter.typePath
  by_cases nested : parameter.isScoped = true
  · rw [baseType_of_isScoped nested] at type
    rw [if_pos nested]
    exact ⟨encodedBase_eq_scopePath nested, List.ne_nil_of_length_pos (Nat.zero_lt_of_lt type.1),
      fun name member => (type.2 name member).2⟩
  · rw [if_neg nested]
    rcases baseType_of_not_isScoped nested with ⟨kind, found, _⟩ | ⟨_, named⟩
    · simp [isBuiltin, found] at other
    · rw [named] at type
      refine ⟨?_, List.cons_ne_nil _ _, by simpa [AreUndigited] using type.2⟩
      rw [encodedBase_eq readable.based, named]
      rfl

/-- A remembered path begins with a digit or with the mark of a nested name. -/
theorem exists_head_scopeEncoding (components : List Component) :
    ∃ char rest, scopeEncoding (components.map Component.encoding) = char :: rest ∧
      (char.isDigit = true ∨ char = 'N') := by
  match components with
  | [component] =>
    obtain ⟨digit, rest, spelled, isDigit⟩ := sourceName_eq_cons component.name
    have alone : scopeEncoding ([component].map Component.encoding) = component.encoding := rfl
    rw [alone, Component.encoding, spelled]
    exact ⟨digit, _, rfl, Or.inl isDigit⟩
  | [] => exact ⟨'N', _, rfl, Or.inr rfl⟩
  | _ :: _ :: _ => exact ⟨'N', _, rfl, Or.inr rfl⟩

/-- A parameter that is encoded as a path to a scope is a class without qualifiers on that path. -/
theorem Parameter.IsReadable.eq_typePath {parameter : Parameter} (readable : parameter.IsReadable)
    {components : List Component} (nonempty : components ≠ [])
    (undigited : AreUndigited (components.map Component.name))
    (same : parameter.encoded = scopeEncoding (components.map Component.encoding)) :
    parameter.qualifiers = [] ∧ parameter.isBuiltin = false ∧
      components = parameter.typePath.map Component.plain := by
  obtain ⟨char, rest, spelled, headed⟩ := exists_head_scopeEncoding components
  have unqualified : parameter.qualifiers = [] := by
    cases qualifiers : parameter.qualifiers with
    | nil => rfl
    | cons code codes =>
      -- A qualifier is neither a digit nor the mark of a nested name.
      have coded := readable.coded code (by simp [qualifiers])
      rw [encoded, qualifiers, spelled, List.cons_append, List.cons.injEq] at same
      rw [same.1] at coded
      rcases coded with rfl | rfl <;> simp at headed
  rw [encoded, unqualified, List.nil_append] at same
  -- A type code begins with a letter other than that mark.
  have other : parameter.isBuiltin = false := by
    cases builtin : parameter.isBuiltin with
    | false => rfl
    | true =>
      obtain ⟨kind, fundamental⟩ := exists_code readable.based builtin
      obtain ⟨letter, behind, coded, notDigit, _, _, notNested⟩ := kind.exists_head
      rw [fundamental, coded, spelled, List.cons.injEq] at same
      rw [← same.1, notDigit] at headed
      exact absurd headed (by simpa using notNested)
  obtain ⟨path, named, free⟩ := readable.typePath other
  exact ⟨unqualified, other,
    scopeEncoding_eq_scopePath nonempty named undigited free (by rw [← same, path])⟩

/-- Equal encodings are those of equal types or of equal paths, so neither a search nor a look-up
meets a different one in a table. -/
theorem Table.entries_unambiguous :
    (∀ first second : Parameter, first.IsDescribed → second.IsDescribed →
      (first.encoded = second.encoded ↔
        first.qualifiers = second.qualifiers ∧ first.SameBase second)) ∧
    (∀ names others : List Text, names ≠ [] → others ≠ [] → AreUndigited names →
      AreUndigited others → scopePath names = scopePath others → names = others) ∧
    (∀ (table : Table) (parameter : Parameter) (index split : Nat), parameter.IsDescribed →
      table.find parameter.qualifiers parameter.encodedBase = some (index, split) →
        (∀ other, table.HoldsType index other →
          other.qualifiers = parameter.qualifiers.drop split ∧ other.SameBase parameter) ∧
        (∀ components, table.HoldsPath index components →
          parameter.qualifiers.drop split = [] ∧ parameter.isBuiltin = false ∧
            components = parameter.typePath.map Component.plain)) ∧
    (∀ (table : Table) (names : List Text) (index : Nat), names ≠ [] → AreUndigited names →
      table.lookup (scopePath names) = some index →
        (∀ other, table.HoldsType index other →
          other.qualifiers = [] ∧ other.isBuiltin = false ∧ other.typePath = names) ∧
        (∀ components, table.HoldsPath index components →
          components = names.map Component.plain)) := by
  refine ⟨?_, ?_, ?_, ?_⟩
  · intro first second described also
    exact Parameter.encoded_eq_iff described.readable also.readable
  · intro names others nonempty named undigited also
    exact scopePath_injective nonempty named undigited also
  · intro table parameter index split described found
    -- The entry is the encoding of the type inside the qualifiers that are left out.
    have inside := described.readable.inside split
    have located : table.entries[index]? = some (parameter.inside split).encoded :=
      (find_eq_some found).2
    constructor
    · rintro other ⟨also, held⟩
      rw [located, Option.some.injEq] at held
      exact (Parameter.encoded_eq_iff also.readable inside).mp held.symm
    · rintro components ⟨nonempty, undigited, held⟩
      rw [located, Option.some.injEq] at held
      exact inside.eq_typePath nonempty undigited held
  · intro table names index nonempty undigited found
    have located := lookup_eq_some found
    constructor
    · rintro other ⟨also, held⟩
      rw [located, Option.some.injEq, ← scopeEncoding_plain] at held
      obtain ⟨unqualified, builtin, path⟩ := @Parameter.IsReadable.eq_typePath other also.readable
        (names.map Component.plain) (by simpa) (by rwa [map_name_plain]) held.symm
      rw [← map_name_plain names, path, map_name_plain]
      exact ⟨unqualified, builtin, rfl⟩
    · rintro components ⟨named, free, held⟩
      rw [located, Option.some.injEq] at held
      exact scopeEncoding_eq_scopePath named nonempty free undigited held.symm

/-- A class under two qualifiers is found at the place of the class without them, which is that of a
scope too. -/
theorem Table.entries_unambiguous_scoped :
    (Parameter.spelled "const a::B *".toList).IsDescribed ∧
      Table.find { entries := ["1a".toList, "N1a1BE".toList] }
        (Parameter.spelled "const a::B *".toList).qualifiers
        (Parameter.spelled "const a::B *".toList).encodedBase = some (1, 2) ∧
      Table.HoldsPath { entries := ["1a".toList, "N1a1BE".toList] } 1
        [.plain "a".toList, .plain "B".toList] ∧
      [.plain "a".toList, .plain "B".toList] =
        (Parameter.spelled "const a::B *".toList).typePath.map Component.plain := by
  have described : (Parameter.spelled "const a::B *".toList).IsDescribed :=
    { described := ⟨_, Parameter.ofSpelling_eq _⟩
      based := by decide +kernel
      named := by decide +kernel }
  have found : Table.find { entries := ["1a".toList, "N1a1BE".toList] }
      (Parameter.spelled "const a::B *".toList).qualifiers
      (Parameter.spelled "const a::B *".toList).encodedBase = some (1, 2) := by decide +kernel
  have held : Table.HoldsPath { entries := ["1a".toList, "N1a1BE".toList] } 1
      [.plain "a".toList, .plain "B".toList] := by
    refine ⟨by decide, ?_, by decide +kernel⟩
    unfold AreUndigited
    decide +kernel
  exact ⟨described, found, held,
    ((entries_unambiguous.2.2.1 _ _ _ _ described found).2 _ held).2.2⟩

/-- A type of the null pointer and a path from the outermost scope each have two spellings and one
encoding. -/
example :
    (Parameter.spelled "std::nullptr_t const*".toList).encoded =
        (Parameter.spelled "const decltype(nullptr) *".toList).encoded ∧
      (Parameter.spelled "::a::B".toList).encoded = (Parameter.spelled "a::::B".toList).encoded := by
  decide +kernel

end Mangling
