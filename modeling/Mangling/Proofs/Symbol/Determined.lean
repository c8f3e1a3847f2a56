import Mangling.Proofs.Signature.Scanned
import Mangling.Proofs.Symbol.Path

/-! A symbol determines its declaration: the names on its path, its parameters and its constness. -/

namespace Mangling

/-- What a base names tells whether it is a fundamental type. -/
theorem Parameter.isBuiltin_eq {first second : Parameter}
    (same : first.baseType = second.baseType) : first.isBuiltin = second.isBuiltin := by
  -- Only a fundamental type is named as one.
  have named : ∀ parameter : Parameter,
      parameter.isBuiltin = match parameter.baseType with
        | .builtin _ => true
        | _ => false := by
    intro parameter
    rw [isBuiltin, baseType]
    cases Builtin.ofSpelling? parameter.base with
    | some kind => rfl
    | none => by_cases long : 1 < parameter.scopeNames.length <;> simp [long]
  rw [named, named, same]

/-- What a base names tells whether it is scoped. -/
theorem Parameter.isScoped_eq {first second : Parameter}
    (same : first.baseType = second.baseType) : first.isScoped = second.isScoped := by
  -- Only a scoped base is named as a path.
  have named : ∀ parameter : Parameter,
      parameter.isScoped = match parameter.baseType with
        | .nested _ => true
        | _ => false := by
    intro parameter
    rw [isScoped, isBuiltin, baseType]
    cases Builtin.ofSpelling? parameter.base with
    | some kind => rfl
    | none => by_cases long : 1 < parameter.scopeNames.length <;> simp [long]
  rw [named, named, same]

/-- A table treats parameters of one type alike. -/
theorem Table.encode_congr (table : Table) {first second : Parameter} (based : first.base ≠ [])
    (also : second.base ≠ []) (same : first.type = second.type) :
    table.encode first = table.encode second := by
  obtain ⟨qualifiers, types⟩ := Prod.mk.inj same
  have bases : first.encodedBase = second.encodedBase := by
    rw [Parameter.encodedBase_eq based, Parameter.encodedBase_eq also, types]
  have builtin := Parameter.isBuiltin_eq types
  have scopes := Parameter.isScoped_eq types
  rw [encode, encode, qualifiers, bases, builtin, scopes]
  by_cases nested : second.isScoped = true
  · -- The names matter for a scoped base only.
    have names : first.scopeNames = second.scopeNames := by
      have path := types
      rw [Parameter.baseType_of_isScoped nested,
        Parameter.baseType_of_isScoped (scopes.trans nested)] at path
      simpa using path
    rw [names]
  · simp [nested]

/-- Over one table, parameters of the same types are written in the same way. -/
theorem Table.encodeAll_congr (table : Table) {first second : List Parameter}
    (based : ∀ parameter ∈ first, parameter.base ≠ [])
    (also : ∀ parameter ∈ second, parameter.base ≠ [])
    (same : first.map Parameter.type = second.map Parameter.type) :
    table.encodeAll first = table.encodeAll second := by
  induction first generalizing table second with
  | nil =>
    cases second with
    | nil => rfl
    | cons other others => simp at same
  | cons parameter parameters ih =>
    cases second with
    | nil => simp at same
    | cons other others =>
      simp only [List.map_cons, List.cons.injEq] at same
      have step := table.encode_congr (based parameter (List.mem_cons_self ..))
        (also other (List.mem_cons_self ..)) same.1
      have rest := ih (table.encode other).2
        (fun inner member => based inner (List.mem_cons_of_mem _ member))
        (fun inner member => also inner (List.mem_cons_of_mem _ member)) same.2
      simp only [encodeAll, step, rest]

/-- Over one table, what is written for a readable parameter tells its type, whatever follows it. -/
theorem Table.encode_injective (table : Table) {first second : Parameter}
    (readable : first.IsReadable) (also : second.IsReadable) {behind after : Text}
    (same : (table.encode first).1 ++ behind = (table.encode second).1 ++ after) :
    first.type = second.type ∧ behind = after := by
  have fits := table.form_fits first
  have fitsOther := table.form_fits second
  rw [encode_eq table first, encode_eq table second, Form.fragments_eq readable.based,
    Form.fragments_eq also.based] at same
  obtain ⟨written, rest⟩ := WrittenType.spell_injective (Form.isReadable_written fits readable)
    (Form.isReadable_written fitsOther also) same
  -- One written type stands for one full encoding, because the table is the same.
  have expanded := Form.expand_of_fits fits
  have expandedOther := Form.expand_of_fits fitsOther
  rw [Form.fragments_eq readable.based, written, ← Form.fragments_eq also.based, expandedOther,
    Option.some.injEq] at expanded
  exact ⟨Parameter.encoded_injective readable also expanded.symm, rest⟩

/-- Over one table, the text of readable parameters tells their types. -/
theorem Table.encodeAll_injective (table : Table) {first second : List Parameter}
    (readable : ∀ parameter ∈ first, parameter.IsReadable)
    (also : ∀ parameter ∈ second, parameter.IsReadable)
    (same : (table.encodeAll first).1.flatten = (table.encodeAll second).1.flatten) :
    first.map Parameter.type = second.map Parameter.type := by
  -- Both sides read one parameter, and then go on over the same table.
  induction first generalizing table second with
  | nil =>
    cases second with
    | nil => rfl
    | cons other others =>
      obtain ⟨char, rest, spelled, _⟩ :=
        table.exists_head_encode (also other (List.mem_cons_self ..))
      simp [encodeAll, spelled] at same
  | cons parameter parameters ih =>
    have readableFirst := readable parameter (List.mem_cons_self ..)
    cases second with
    | nil =>
      obtain ⟨char, rest, spelled, _⟩ := table.exists_head_encode readableFirst
      simp [encodeAll, spelled] at same
    | cons other others =>
      have readableOther := also other (List.mem_cons_self ..)
      simp only [encodeAll, List.flatten_cons] at same
      obtain ⟨types, behind⟩ := table.encode_injective readableFirst readableOther same
      have step := table.encode_congr readableFirst.based readableOther.based types
      rw [step] at behind
      have rest := ih (table.encode other).2
        (fun inner member => readable inner (List.mem_cons_of_mem _ member))
        (fun inner member => also inner (List.mem_cons_of_mem _ member)) behind
      rw [List.map_cons, List.map_cons, rest, types]

/-- What a symbol tells of a signature: the names on its path, the types of its parameters if it has a
list of them, and whether it is a constant member. -/
structure Reading where
  path : List PathName
  parameters : Option (List (Text × BaseType))
  isConst : Bool
  deriving DecidableEq

/-- The names on the path of a signature. -/
def Layout.names (layout : Layout) : List PathName :=
  (layout.scopes ++ [layout.last]).map Component.reading

/-- What the symbol of a signature tells of it. -/
def Layout.reading (layout : Layout) : Reading :=
  { path := layout.names
    -- The parameters are those that are written, so a blank list is a lone `void`.
    parameters := match layout.ending with
      | .called content _ => some ((writtenParameters content).map Parameter.type)
      | .plain => none
    isConst := layout.ending.isConst }

/-- A signature from whose symbol everything can be told: what is only a name has a scope, no name,
template argument or piece of a class type begins with a digit, and some item of a parameter list that
is not blank has a base. -/
structure Layout.IsReadable (layout : Layout) : Prop where
  shaped : layout.ending = .plain → layout.scopes ≠ []
  named : ∀ component ∈ layout.scopes ++ [layout.last], startsWithDigit component.name = false
  argued : ∀ component ∈ layout.scopes ++ [layout.last], ∀ content ∈ component.arguments,
    ∀ item ∈ commaPieces content, startsWithDigit (trimBlanks item) = false
  typed : ∀ content isConst, layout.ending = .called content isConst →
    ∀ item ∈ commaPieces content, (Parameter.spelled item).isBuiltin = false →
      ∀ piece ∈ scopePieces (baseOf item), startsWithDigit piece = false
  based : ∀ content isConst, layout.ending = .called content isConst →
    trimBlanks content ≠ [] → ∃ item ∈ commaPieces content, baseOf item ≠ []

/-- The content of the parameter list of an ending, if it has one. -/
def Ending.content? : Ending → Option Text
  | .called content _ => some content
  | .plain => none

/-- Whether everything can be told of a signature can be decided. -/
instance (layout : Layout) : Decidable layout.IsReadable :=
  decidable_of_iff
    ((layout.ending = .plain → layout.scopes ≠ []) ∧
      (∀ component ∈ layout.scopes ++ [layout.last], startsWithDigit component.name = false) ∧
      (∀ component ∈ layout.scopes ++ [layout.last], ∀ content ∈ component.arguments,
        ∀ item ∈ commaPieces content, startsWithDigit (trimBlanks item) = false) ∧
      ∀ content ∈ layout.ending.content?,
        (∀ item ∈ commaPieces content, (Parameter.spelled item).isBuiltin = false →
          ∀ piece ∈ scopePieces (baseOf item), startsWithDigit piece = false) ∧
        (trimBlanks content ≠ [] → ∃ item ∈ commaPieces content, baseOf item ≠ []))
    (by
      -- An ending has this content exactly when it is called with it.
      have called : ∀ content, content ∈ layout.ending.content? ↔
          ∃ isConst, layout.ending = .called content isConst := by
        intro content
        cases layout.ending with
        | called other isConst => simp [Ending.content?]
        | plain => simp [Ending.content?]
      constructor
      · intro ⟨shaped, named, argued, listed⟩
        refine { shaped, named, argued, typed := ?_, based := ?_ }
        · intro content isConst ending
          exact (listed content ((called content).mpr ⟨isConst, ending⟩)).1
        · intro content isConst ending
          exact (listed content ((called content).mpr ⟨isConst, ending⟩)).2
      · intro readable
        refine ⟨readable.shaped, readable.named, readable.argued, ?_⟩
        intro content member
        obtain ⟨isConst, ending⟩ := (called content).mp member
        exact ⟨readable.typed content isConst ending, readable.based content isConst ending⟩)

/-- The parameters that are written have a base, and can be told from their texts. -/
theorem Layout.IsReadable.parameters {layout : Layout} (readable : layout.IsReadable) :
    ∀ parameter ∈ layout.ending.parameters, parameter.IsReadable := by
  intro parameter member
  cases ending : layout.ending with
  | plain => simp [Ending.parameters, ending] at member
  | called content isConst =>
    simp only [Ending.parameters, ending, writtenParameters] at member
    split at member
    · -- The lone type without values is a fundamental type.
      rw [List.mem_singleton.mp member]
      exact
        { based := by decide
          coded := Parameter.coded_of_ofSpelling (Parameter.ofSpelling_eq _)
          named := fun other => absurd other (by decide) }
    · obtain ⟨written, nonempty⟩ := List.mem_filter.mp member
      obtain ⟨item, inside, rfl⟩ := List.mem_map.mp written
      exact
        { based := by simpa [Parameter.isEmpty] using nonempty
          coded := Parameter.coded_of_ofSpelling (Parameter.ofSpelling_eq _)
          named := readable.typed content isConst ending item inside }

/-- A parameter list always writes a parameter. -/
theorem Layout.IsReadable.writtenParameters_ne_nil {layout : Layout}
    (readable : layout.IsReadable) {content : Text} {isConst : Bool}
    (ending : layout.ending = .called content isConst) : writtenParameters content ≠ [] := by
  unfold writtenParameters
  split
  · simp
  next spelled =>
    obtain ⟨item, member, based⟩ :=
      readable.based content isConst ending (by simpa using spelled)
    have kept : Parameter.spelled item ∈ ((commaPieces content).map Parameter.spelled).filter
        fun parameter => !parameter.isEmpty := by
      refine List.mem_filter.mpr ⟨List.mem_map_of_mem member, ?_⟩
      simpa [Parameter.isEmpty, Parameter.spelled] using based
    exact List.ne_nil_of_mem kept

/-- The names on the path of a scanned signature can be told from their texts. -/
theorem Layout.IsReadable.names {layout : Layout} (readable : layout.IsReadable)
    (scanned : AreScanned false layout.tokens) : ∀ name ∈ layout.names, name.IsReadable := by
  intro name member
  obtain ⟨component, inside, rfl⟩ := List.mem_map.mp member
  have token : Token.name component.name ∈ layout.tokens := by
    unfold tokens
    rcases List.mem_append.mp inside with scope | last
    · exact List.mem_append_left _ (List.mem_flatMap.mpr ⟨component, scope, by
        simp [Component.tokens]⟩)
    · rw [List.mem_singleton.mp last]
      simp [Component.tokens]
  refine ⟨⟨scanned.each _ token, readable.named component inside⟩, ?_⟩
  intro types some' type isType
  cases arguments : component.arguments with
  | none => simp [Component.reading, arguments] at some'
  | some content =>
    simp only [Component.reading, arguments, Option.map_some, Option.mem_def,
      Option.some.injEq] at some'
    rw [← some', argumentTypes] at isType
    obtain ⟨argument, kept, rfl⟩ := List.mem_map.mp isType
    obtain ⟨trimmed, nonempty⟩ := List.mem_filter.mp kept
    obtain ⟨item, piece, rfl⟩ := List.mem_map.mp trimmed
    unfold argumentType
    cases Builtin.ofSpelling? (trimBlanks item) with
    | some kind => trivial
    | none =>
      exact ⟨by simpa using nonempty,
        readable.argued component inside content arguments item piece⟩

/-- Outside every scope a scanned signature has no member word. -/
theorem Layout.isConst_of_scopes {layout : Layout} (scanned : AreScanned false layout.tokens)
    (free : layout.scopes = []) : layout.ending.isConst = false := by
  have noScope : Token.scope ∉ layout.tokens := by
    rw [tokens, free]
    cases arguments : layout.last.arguments <;> cases ending : layout.ending with
    | plain => simp [Component.tokens, arguments, Ending.tokens]
    | called content isConst =>
      cases isConst <;> simp [Component.tokens, arguments, Ending.tokens]
  cases ending : layout.ending with
  | plain => rfl
  | called content isConst =>
    cases isConst with
    | false => rfl
    | true =>
      -- The member word stands only beside a scope.
      have word : Token.const ∈ layout.tokens := by simp [tokens, ending, Ending.tokens]
      rcases scanned.member word with inScope | scope
      · exact absurd inScope (by decide)
      · exact absurd scope noScope

/-- The path of a signature is written as its names. -/
theorem Layout.path_eq (layout : Layout) :
    layout.path =
      if layout.scopes = [] then layout.last.reading.encoding
      else 'N' :: ((if layout.ending.isConst then ['K'] else []) ++
        layout.names.flatMap PathName.encoding ++ ['E']) := by
  have encodings : ∀ components : List Component,
      components.flatMap Component.encoding =
        (components.map Component.reading).flatMap PathName.encoding := by
    intro components
    rw [List.flatMap_map, funext Component.encoding_eq]
  rw [path, names, ← encodings]
  by_cases free : layout.scopes = []
  · simp [free, Component.encoding_eq]
  · simp [free]

/-- The mark of a constant member is not the beginning of a path. -/
theorem Layout.constMark_cons_ne (layout : Layout) (rest text : Text) :
    'K' :: rest ≠ layout.names.flatMap PathName.encoding ++ text := by
  cases path : layout.names with
  | nil => simp [names] at path
  | cons name names =>
    rw [List.flatMap_cons, List.append_assoc]
    exact PathName.mark_cons_ne (by decide) name rest _

/-- In front of the names of a nested name the mark of a constant member tells the constness. -/
theorem Layout.isConst_injective {layout other : Layout} {behind after : Text}
    (same : (if layout.ending.isConst then ['K'] else []) ++
        (layout.names.flatMap PathName.encoding ++ behind) =
      (if other.ending.isConst then ['K'] else []) ++
        (other.names.flatMap PathName.encoding ++ after)) :
    layout.ending.isConst = other.ending.isConst := by
  cases first : layout.ending.isConst <;> cases second : other.ending.isConst
  · rfl
  · simp only [first, second, Bool.false_eq_true, if_false, if_true, List.nil_append,
      List.cons_append] at same
    exact absurd same.symm (layout.constMark_cons_ne _ _)
  · simp only [first, second, Bool.false_eq_true, if_false, if_true, List.nil_append,
      List.cons_append] at same
    exact absurd same (other.constMark_cons_ne _ _)
  · rfl

/-- The text of a path tells its names and its constness, whatever follows it. -/
theorem Layout.path_injective {layout other : Layout}
    (scanned : AreScanned false layout.tokens) (also : AreScanned false other.tokens)
    (readable : layout.IsReadable) (alsoReadable : other.IsReadable) {behind after : Text}
    (unopened : IsUnopened behind) (alsoUnopened : IsUnopened after)
    (same : layout.path ++ behind = other.path ++ after) :
    layout.names = other.names ∧ layout.ending.isConst = other.ending.isConst ∧
      behind = after := by
  have names := readable.names scanned
  have otherNames := alsoReadable.names also
  rw [path_eq, path_eq] at same
  -- The mark of a nested name tells whether there are scopes.
  by_cases free : layout.scopes = []
  · by_cases otherFree : other.scopes = []
    · rw [if_pos free, if_pos otherFree] at same
      obtain ⟨equal, rest⟩ := PathName.encoding_injective
        (names layout.last.reading (by simp [Layout.names]))
        (otherNames other.last.reading (by simp [Layout.names])) unopened alsoUnopened same
      refine ⟨by simp [Layout.names, free, otherFree, equal], ?_, rest⟩
      rw [isConst_of_scopes scanned free, isConst_of_scopes also otherFree]
    · rw [if_pos free, if_neg otherFree] at same
      exact absurd same.symm (PathName.mark_cons_ne (by decide) layout.last.reading _ _)
  · by_cases otherFree : other.scopes = []
    · rw [if_neg free, if_pos otherFree] at same
      exact absurd same (PathName.mark_cons_ne (by decide) other.last.reading _ _)
    · rw [if_neg free, if_neg otherFree] at same
      simp only [List.cons_append, List.append_assoc, List.cons.injEq, true_and,
        List.nil_append] at same
      have flags := isConst_injective same
      rw [flags, List.append_cancel_left_eq] at same
      obtain ⟨equal, rest⟩ := PathName.flatMap_encoding_injective names otherNames same
      exact ⟨equal, flags, rest⟩

/-- Equal names are equal scopes around an equal last name. -/
theorem Layout.names_eq_iff {layout other : Layout} :
    layout.names = other.names ↔
      layout.scopes.map Component.reading = other.scopes.map Component.reading ∧
        layout.last.reading = other.last.reading := by
  rw [names, names, List.map_append, List.map_append]
  constructor
  · intro same
    obtain ⟨scopes, last⟩ := List.append_inj' same (by simp)
    exact ⟨scopes, by simpa using last⟩
  · rintro ⟨scopes, last⟩
    rw [scopes, List.map_singleton, List.map_singleton, last]

/-- The names on a path tell the encodings of its scopes, and so the table of them. -/
theorem Layout.table_congr {layout other : Layout} (same : layout.names = other.names) :
    layout.table = other.table := by
  have encodings : ∀ components : List Component, components.map Component.encoding =
      (components.map Component.reading).map PathName.encoding := by
    intro components
    rw [List.map_map, funext Component.encoding_eq]
    rfl
  rw [table, table, encodings, encodings, (names_eq_iff.mp same).1]

/-- Equal names and equal constness are written as equal paths. -/
theorem Layout.path_congr {layout other : Layout} (same : layout.names = other.names)
    (flags : layout.ending.isConst = other.ending.isConst) : layout.path = other.path := by
  obtain ⟨scopes, last⟩ := names_eq_iff.mp same
  have free : layout.scopes = [] ↔ other.scopes = [] := by
    rw [← List.map_eq_nil_iff (f := Component.reading), scopes, List.map_eq_nil_iff]
  rw [path_eq, path_eq, same, last, flags]
  simp only [free]

/-- The text of parameters begins with no template arguments. -/
theorem Layout.IsReadable.unopened {layout : Layout} (readable : layout.IsReadable) (table : Table) :
    IsUnopened (table.encodeAll layout.ending.parameters).1.flatten := by
  have each := readable.parameters
  cases parameters : layout.ending.parameters with
  | nil => simp [IsUnopened, Table.encodeAll]
  | cons parameter others =>
    obtain ⟨char, rest, spelled, other⟩ :=
      table.exists_head_encode (each parameter (by simp [parameters]))
    simpa [IsUnopened, Table.encodeAll, spelled] using other

/-- The types that are written tell whether there is a parameter list, because a list always writes
some. -/
theorem Layout.reading_parameters_eq {layout other : Layout} (readable : layout.IsReadable)
    (alsoReadable : other.IsReadable)
    (types : layout.ending.parameters.map Parameter.type =
      other.ending.parameters.map Parameter.type) :
    layout.reading.parameters = other.reading.parameters := by
  cases first : layout.ending with
  | plain =>
    cases second : other.ending with
    | plain => simp [reading, first, second]
    | called content isConst =>
      simp only [first, second, Ending.parameters, List.map_nil] at types
      exact absurd types.symm (by simpa using alsoReadable.writtenParameters_ne_nil second)
  | called content isConst =>
    cases second : other.ending with
    | plain =>
      simp only [first, second, Ending.parameters, List.map_nil] at types
      exact absurd types (by simpa using readable.writtenParameters_ne_nil first)
    | called otherContent otherConst =>
      simp only [first, second, Ending.parameters] at types
      simp [reading, first, second, types]

/-- Two signatures have the same symbol exactly when they read the same. -/
theorem Layout.symbol_eq_iff {layout other : Layout}
    (scanned : AreScanned false layout.tokens) (also : AreScanned false other.tokens)
    (readable : layout.IsReadable) (alsoReadable : other.IsReadable) :
    layout.symbol = other.symbol ↔ layout.reading = other.reading := by
  have based : ∀ {layout : Layout}, layout.IsReadable →
      ∀ parameter ∈ layout.ending.parameters, parameter.base ≠ [] :=
    fun readable parameter member => (readable.parameters parameter member).based
  -- The parameters that are read are those that are written, where there is a list of them.
  have listed : ∀ layout : Layout, layout.reading.parameters.getD [] =
      layout.ending.parameters.map Parameter.type := by
    intro layout
    cases ending : layout.ending <;> simp [reading, ending, Ending.parameters]
  constructor
  · intro same
    rw [symbol, symbol, List.append_cancel_left_eq] at same
    obtain ⟨path, flags, rest⟩ := path_injective scanned also readable alsoReadable
      (readable.unopened _) (alsoReadable.unopened _) same
    rw [table_congr path] at rest
    have types := other.table.encodeAll_injective readable.parameters alsoReadable.parameters rest
    rw [reading, reading, Reading.mk.injEq]
    exact ⟨path, reading_parameters_eq readable alsoReadable types, flags⟩
  · intro same
    have names : layout.names = other.names := congrArg Reading.path same
    have flags : layout.ending.isConst = other.ending.isConst := congrArg Reading.isConst same
    have types : layout.ending.parameters.map Parameter.type =
        other.ending.parameters.map Parameter.type := by
      rw [← listed, ← listed, same]
    rw [symbol, symbol, path_congr names flags, table_congr names,
      other.table.encodeAll_congr (based readable) (based alsoReadable) types]

/-- A symbol determines its declaration: signatures are mangled into the same symbol exactly when they
have the same names on their paths, the same types of parameters and the same constness. -/
theorem mangle_eq_iff_reading_eq {first second : Text} {layout other : Layout}
    (scanned : (scanSignature first).result = .ok layout.tokens)
    (also : (scanSignature second).result = .ok other.tokens)
    (readable : layout.IsReadable) (alsoReadable : other.IsReadable) :
    ∃ symbol otherSymbol, (mangle first).outcome = .ok symbol ∧
      (mangle second).outcome = .ok otherSymbol ∧
      (symbol = otherSymbol ↔ layout.reading = other.reading) := by
  refine ⟨layout.symbol, other.symbol, mangle_of_layout scanned readable.shaped,
    mangle_of_layout also alsoReadable.shaped, ?_⟩
  exact Layout.symbol_eq_iff (areScanned_scanSignature scanned) (areScanned_scanSignature also)
    readable alsoReadable

/-- Spaces and the place of a qualifier make no difference to the symbol of a member. -/
theorem mangle_spaced_member :
    ∃ symbol otherSymbol,
      (mangle "a::B<int, C>::f(char const*, a::B) const".toList).outcome = .ok symbol ∧
      (mangle "a::B<int,C>::f(const char*,a::B) const".toList).outcome = .ok otherSymbol ∧
      symbol = otherSymbol := by
  obtain ⟨symbol, other, first, second, same⟩ := @mangle_eq_iff_reading_eq
    "a::B<int, C>::f(char const*, a::B) const".toList
    "a::B<int,C>::f(const char*,a::B) const".toList
    { scopes := [{ name := "a".toList }, { name := "B".toList, arguments := "int, C".toList }]
      last := { name := "f".toList }
      ending := .called "char const*, a::B".toList true }
    { scopes := [{ name := "a".toList }, { name := "B".toList, arguments := "int,C".toList }]
      last := { name := "f".toList }
      ending := .called "const char*,a::B".toList true }
    (by with_unfolding_all rfl) (by with_unfolding_all rfl) (by decide +kernel) (by decide +kernel)
  exact ⟨symbol, other, first, second, same.mpr (by decide +kernel)⟩

/-- A blank parameter list and a lone `void` are written alike, although only one has a parameter with
a base. -/
theorem mangle_blank_eq_void :
    (Layout.IsReadable { last := { name := "f".toList }, ending := .called [] false } ∧
        Layout.IsReadable
          { last := { name := "f".toList }, ending := .called "void".toList false }) ∧
      (scanSignature "f()".toList).result = .ok (Layout.tokens
        { last := { name := "f".toList }, ending := .called [] false }) ∧
      (scanSignature "f(void)".toList).result = .ok (Layout.tokens
        { last := { name := "f".toList }, ending := .called "void".toList false }) ∧
      (mangle "f()".toList).outcome = .ok "_Z1fv".toList ∧
      (mangle "f(void)".toList).outcome = .ok "_Z1fv".toList ∧
      (((commaPieces []).map Parameter.spelled).filter fun parameter => !parameter.isEmpty) ≠
        ((commaPieces "void".toList).map Parameter.spelled).filter
          fun parameter => !parameter.isEmpty := by
  refine ⟨⟨?_, ?_⟩, ?_, ?_, ?_, ?_, ?_⟩
  · decide +kernel
  · decide +kernel
  · with_unfolding_all rfl
  · with_unfolding_all rfl
  · with_unfolding_all rfl
  · with_unfolding_all rfl
  · decide +kernel

end Mangling
