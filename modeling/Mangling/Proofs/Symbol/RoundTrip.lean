import Mangling.Proofs.Symbol.Printed

/-! Demangling undoes mangling, as long as no qualifier stays outside a back reference and the table
keeps to eleven entries. -/

namespace Mangling

/-- What a runtime prints is what the grammar of symbols tells. -/
def FollowsGrammar (runtime : Text → Option Text) : Prop :=
  ∀ symbol declaration,
    -- A runtime sees a symbol up to its first null character, and counts bytes.
    readSymbol Char.utf8Size (symbol.takeWhile (· != '\x00')) = some declaration →
      runtime symbol = some declaration.spelling

/-- Demangling by a runtime; where it prints nothing, a notice is given. -/
def demangleBy (runtime : Text → Option Text) (symbol : Text) : Text × List Notice :=
  match runtime symbol with
  | some name => (name, [])
  | none => (noType, [.unreadable symbol])

/-- The runtime that prints what the grammar tells, and nothing else. -/
def grammarRuntime (symbol : Text) : Option Text :=
  (readSymbol Char.utf8Size (symbol.takeWhile (· != '\x00'))).map Declaration.spelling

/-- What this runtime prints is what the grammar tells. -/
theorem followsGrammar_grammarRuntime : FollowsGrammar grammarRuntime := by
  intro symbol declaration read
  rw [grammarRuntime, read, Option.map_some]

/-- Demangling is demangling by the grammar itself. -/
theorem demangle_eq_demangleBy (symbol : Text) :
    demangle symbol = demangleBy grammarRuntime symbol := by
  rw [demangle, demangleBy, grammarRuntime]
  cases readSymbol Char.utf8Size (symbol.takeWhile (· != '\x00')) <;> rfl

/-- The index that a turn refers to is that of an entry. -/
theorem Table.index_lt_of_formAll {table : Table} {parameters : List Parameter} :
    ∀ turn ∈ table.formAll parameters, ∀ index ∈ turn.2.index?,
      index < (table.encodeAll parameters).2.size := by
  induction parameters generalizing table with
  | nil => simp [formAll]
  | cons parameter parameters ih =>
    intro turn member index refers
    rcases List.mem_cons.mp member with rfl | later
    · -- The first turn refers to the table that it meets, which only grows.
      have fits := table.form_fits parameter
      have grown := (table.entries_encodeAll (parameter :: parameters)).length_le
      have bounded : index < table.entries.length := by
        simp only at refers
        cases form : table.form parameter with
        | whole => simp [form, Form.index?] at refers
        | reference split place =>
          rw [form] at fits refers
          obtain ⟨_, _, located⟩ := fits
          have same : place = index := by simpa [Form.index?] using refers
          exact same ▸ (List.getElem?_eq_some_iff.mp located).1
        | member depth place =>
          rw [form] at fits refers
          obtain ⟨_, _, _, _, located, _⟩ := fits
          have same : place = index := by simpa [Form.index?] using refers
          exact same ▸ (List.getElem?_eq_some_iff.mp located).1
      exact Nat.lt_of_lt_of_le bounded grown
    · exact ih turn later index refers

/-- The parameters that a plain declaration writes are plain. -/
theorem Prototype.IsPlain.parameters {prototype : Prototype} (plain : prototype.IsPlain) :
    ∀ parameter ∈ prototype.layout.ending.parameters, parameter.IsPlain := by
  intro parameter member
  cases listed : prototype.parameters with
  | none => simp [layout, listed, Ending.parameters] at member
  | some parameters =>
    simp only [layout, listed, Ending.parameters, plain.writtenParameters listed] at member
    split at member
    · rw [List.mem_singleton.mp member]
      exact { read := Parameter.ofSpelling_eq _, typed := Or.inl (by decide) }
    · exact plain.typed parameters listed parameter member

/-- The table of a plain declaration lists the types of its scopes. -/
theorem Prototype.IsPlain.lists_scopes {prototype : Prototype} (plain : prototype.IsPlain) :
    prototype.layout.table.Lists (pathTypes 0 prototype.scopes) := by
  have encodings := scopeEncodings_sourceNames [] prototype.scopes
  have scopes : (prototype.scopes.map fun name => ({ name } : Component)).map Component.encoding =
      prototype.scopes.map sourceName := by
    rw [List.map_map]
    apply List.map_congr_left
    intro name _
    simp [Component.encoding]
  constructor
  · rw [encodingOf_pathTypes, Layout.table, layout, scopes]
    exact encodings
  · apply isReadableType_pathTypes
    intro name member
    exact (plain.named name (List.mem_append_left _ member)).named

/-- A name without marks is read back as a path of one name. -/
theorem readName_source {width : Char → Nat} {name : Text} (named : IsName name)
    (narrow : ∀ char ∈ name, width char = 1) (rest : Text) :
    readName width (sourceName name ++ rest) = some ({ names := [name] }, rest) := by
  have read := readSource_sourceName named narrow rest
  obtain ⟨digit, behind, front, isDigit⟩ := sourceName_eq_cons name
  rw [front, List.cons_append] at read ⊢
  rw [readName.eq_def]
  split
  next same =>
    -- A digit is not the mark of a nested name.
    simp only [List.cons.injEq] at same
    simp [same.1] at isDigit
  next => simp [read]

/-- A nested name is read back with its constness. -/
theorem readName_nested {width : Char → Nat} {names : List Text} (nonempty : names ≠ [])
    (named : ∀ name ∈ names, IsName name)
    (narrow : ∀ name ∈ names, ∀ char ∈ name, width char = 1) (isConst : Bool) (rest : Text) :
    readName width ('N' :: ((if isConst then ['K'] else []) ++
        (names.flatMap sourceName ++ 'E' :: rest))) =
      some ({ names, isConst }, rest) := by
  have read := readSources_flatMap named narrow rest
  match names with
  | name :: others =>
    -- Behind the mark of the nested name comes the length of the first name.
    have unmarked : ((name :: others).flatMap sourceName ++ 'E' :: rest).head? ≠ some 'K' := by
      obtain ⟨digit, behind, front, isDigit⟩ := sourceName_eq_cons name
      simp only [List.flatMap_cons, front, List.cons_append, List.head?_cons, Ne,
        Option.some.injEq]
      exact ne_of_isDigit isDigit (by decide)
    generalize (name :: others).flatMap sourceName ++ 'E' :: rest = text at read unmarked ⊢
    cases isConst with
    | true => simp [readName, read]
    | false => simp [readName, unmarked, read]

/-- Without scopes or without a parameter list there is no member word. -/
theorem Prototype.IsPlain.isConst_eq_false {prototype : Prototype} (plain : prototype.IsPlain)
    (free : prototype.scopes = [] ∨ prototype.parameters = none) : prototype.isConst = false := by
  cases isConst : prototype.isConst with
  | false => rfl
  | true =>
    obtain ⟨nested, list⟩ := plain.member isConst
    rcases free with unscoped | unlisted
    · exact absurd unscoped nested
    · simp [unlisted] at list

/-- The name of a plain declaration is read back. -/
theorem Prototype.IsPlain.readName {prototype : Prototype} (plain : prototype.IsPlain)
    (rest : Text) :
    Mangling.readName Char.utf8Size (prototype.layout.path ++ rest) =
      some ({ names := prototype.path, isConst := prototype.isConst }, rest) := by
  have named : ∀ name ∈ prototype.path, IsName name :=
    fun name member => (plain.named name member).named
  have narrow : ∀ name ∈ prototype.path, ∀ char ∈ name, char.utf8Size = 1 :=
    fun name member => (plain.named name member).narrow
  have encoding : ∀ name : Text, Component.encoding { name } = sourceName name := by
    intro name
    simp [Component.encoding]
  have flag : prototype.layout.ending.isConst = prototype.isConst := by
    cases listed : prototype.parameters with
    | some parameters => simp [layout, listed, Ending.isConst]
    | none => simp [layout, listed, Ending.isConst, plain.isConst_eq_false (Or.inr listed)]
  cases scopes : prototype.scopes with
  | nil =>
    have free := plain.isConst_eq_false (Or.inl scopes)
    have single : prototype.path = [prototype.name] := by simp [path, scopes]
    have text : prototype.layout.path = sourceName prototype.name := by
      simp [Layout.path, layout, scopes, encoding]
    rw [text, single, free]
    exact readName_source (named _ (by simp [single])) (narrow _ (by simp [single])) rest
  | cons scope others =>
    have text : prototype.layout.path ++ rest =
        'N' :: ((if prototype.isConst then ['K'] else []) ++
          (prototype.path.flatMap sourceName ++ 'E' :: rest)) := by
      have some' : prototype.layout.scopes.isEmpty = false := by simp [layout, scopes]
      rw [Layout.path, some', flag]
      simp [layout, path, List.flatMap_map, encoding]
    rw [text]
    exact readName_nested (by simp [path]) named narrow prototype.isConst rest

/-- Identifiers and their lengths have no null character. -/
theorem IsIdentifier.nul_not_mem_sourceName {name : Text} (identifier : IsIdentifier name) :
    '\x00' ∉ sourceName name := by
  intro member
  rcases List.mem_append.mp member with digit | char
  · exact absurd (isDigit_of_mem_decimal digit) (by decide)
  · exact identifier.not_mem rfl (by decide) char

/-- Names of identifiers have no null character. -/
theorem nul_not_mem_flatMap_sourceName {names : List Text}
    (identifiers : ∀ name ∈ names, IsIdentifier name) : '\x00' ∉ names.flatMap sourceName := by
  intro member
  obtain ⟨name, inside, char⟩ := List.mem_flatMap.mp member
  exact (identifiers name inside).nul_not_mem_sourceName char

/-- The digits of a reference have no null character. -/
theorem nul_not_mem_referenceDigits (index : Nat) : '\x00' ∉ referenceDigits index := by
  unfold referenceDigits
  split
  · simp
  · intro digit
    exact absurd (isDigit_of_mem_decimal digit) (by decide)

/-- What is written for a plain parameter has no null character. -/
theorem Table.nul_not_mem_encode (table : Table) {parameter : Parameter}
    (plain : parameter.IsPlain) : '\x00' ∉ (table.encode parameter).1 := by
  have fits := table.form_fits parameter
  have names := plain.baseType.1
  have qualifiers : '\x00' ∉ parameter.qualifiers := by
    intro member
    rcases plain.readable.coded _ member with same | same <;> exact absurd same (by decide)
  rw [encode_eq, Form.fragments_eq plain.readable.based]
  cases form : table.form parameter with
  | whole =>
    have base : '\x00' ∉ parameter.baseType.encoding := by
      cases found : parameter.baseType with
      | builtin kind => cases kind <;> decide
      | source name =>
        rw [found] at names
        exact (names name (by simp [BaseType.names])).nul_not_mem_sourceName
      | nested path =>
        rw [found] at names
        simpa [BaseType.encoding, BaseType.names, nestedName] using
          nul_not_mem_flatMap_sourceName names
    simp [Form.written, qualifiers, base]
  | reference split index =>
    have outside : '\x00' ∉ parameter.qualifiers.take split :=
      fun member => qualifiers (List.mem_of_mem_take member)
    simp [Form.written, outside, nul_not_mem_referenceDigits]
  | member depth index =>
    rw [form] at fits
    rw [Parameter.baseType_of_isScoped fits.2.1] at names
    have behind : '\x00' ∉ (parameter.scopeNames.drop depth).flatMap sourceName :=
      nul_not_mem_flatMap_sourceName fun name member => names name (List.mem_of_mem_drop member)
    simp [Form.written, qualifiers, nul_not_mem_referenceDigits, behind]

/-- What a run over plain parameters writes has no null character. -/
theorem Table.nul_not_mem_encodeAll (table : Table) {parameters : List Parameter}
    (plain : ∀ parameter ∈ parameters, parameter.IsPlain) :
    '\x00' ∉ (table.encodeAll parameters).1.flatten := by
  induction parameters generalizing table with
  | nil => simp [encodeAll]
  | cons parameter parameters ih =>
    have first := table.nul_not_mem_encode (plain parameter (List.mem_cons_self ..))
    have rest := ih (table.encode parameter).2
      fun other member => plain other (List.mem_cons_of_mem _ member)
    rw [encodeAll, List.flatten_cons, List.mem_append, not_or]
    exact ⟨first, rest⟩

/-- The symbol of a plain declaration has no null character. -/
theorem Prototype.IsPlain.nul_not_mem_symbol {prototype : Prototype} (plain : prototype.IsPlain) :
    '\x00' ∉ prototype.layout.symbol := by
  have encoding : ∀ name ∈ prototype.path, '\x00' ∉ Component.encoding { name } := by
    intro name member
    simpa [Component.encoding] using (plain.named name member).nul_not_mem_sourceName
  have last := encoding prototype.name (by simp [path])
  have scopes : '\x00' ∉ prototype.layout.scopes.flatMap Component.encoding := by
    intro member
    obtain ⟨component, inside, char⟩ := List.mem_flatMap.mp member
    obtain ⟨name, scope, rfl⟩ := List.mem_map.mp inside
    exact encoding name (List.mem_append_left _ scope) char
  have path : '\x00' ∉ prototype.layout.path := by
    unfold Layout.path
    split
    · exact last
    · have flag : '\x00' ∉ (if prototype.layout.ending.isConst then ['K'] else []) := by
        split <;> decide
      simp only [List.mem_cons, List.mem_append, List.not_mem_nil, or_false, not_or]
      exact ⟨by decide, ⟨⟨flag, scopes⟩, last⟩, by decide⟩
  have parameters := prototype.layout.table.nul_not_mem_encodeAll plain.parameters
  rw [Layout.symbol, List.mem_append, List.mem_append, not_or, not_or]
  exact ⟨by decide, path, parameters⟩

/-- What a symbol tells of a declaration: its names, its constness and the trees of the types that it
writes. -/
def Prototype.declaration (prototype : Prototype) : Declaration :=
  { names := prototype.path
    isConst := prototype.isConst
    types := prototype.layout.ending.parameters.map fun parameter => treeOf parameter.type }

/-- The symbol of a plain declaration is read back. -/
theorem Prototype.IsPlain.readSymbol {prototype : Prototype} (plain : prototype.IsPlain)
    (inside : ∀ turn ∈ prototype.layout.table.formAll prototype.layout.ending.parameters,
      turn.2.outside = 0)
    (few : (prototype.layout.table.encodeAll prototype.layout.ending.parameters).2.size ≤ 11) :
    Mangling.readSymbol Char.utf8Size (prototype.layout.symbol.takeWhile (· != '\x00')) =
      some prototype.declaration := by
  have each := plain.parameters
  -- A symbol without null characters is read whole.
  have whole : prototype.layout.symbol.takeWhile (· != '\x00') = prototype.layout.symbol := by
    have other : ∀ char ∈ prototype.layout.symbol, (char != '\x00') = true := by
      intro char member
      rw [bne_iff_ne]
      rintro rfl
      exact plain.nul_not_mem_symbol member
    simpa using @List.takeWhile_append_of_pos _ _ _ [] other
  have candidates : TypeTree.scopes prototype.path.dropLast =
      (pathTypes 0 prototype.scopes).map treeOf := by
    rw [path, List.dropLast_concat, TypeTree.scopes_eq, treeOf_pathTypes]
  have narrow : ∀ parameter ∈ prototype.layout.ending.parameters,
      ∀ name ∈ parameter.baseType.names, ∀ char ∈ name, char.utf8Size = 1 :=
    fun parameter member name inner => ((each parameter member).baseType.1 name inner).narrow
  obtain ⟨_, types⟩ := readTypes_encodeAll plain.lists_scopes
    (fun parameter member => (each parameter member).readable) narrow inside
    (fun turn member index refers => by
      have bounded := Table.index_lt_of_formAll turn member index refers
      omega)
  have text : prototype.layout.symbol = '_' :: 'Z' :: (prototype.layout.path ++
      (prototype.layout.table.encodeAll prototype.layout.ending.parameters).1.flatten) := rfl
  rw [whole, text, Mangling.readSymbol, plain.readName]
  simp [candidates, types, declaration]

/-- The trees of a parameter list are printed as the list. -/
theorem printedTypes_eq {parameters : List Parameter}
    (plain : ∀ parameter ∈ parameters, parameter.IsPlain) (nonempty : parameters ≠ []) :
    printedTypes (parameters.map fun parameter => treeOf parameter.type) =
      printedParameters parameters := by
  have spellings : (parameters.map fun parameter => treeOf parameter.type).map TypeTree.spelling =
      parameters.map Parameter.printed := by
    rw [List.map_map]
    exact List.map_congr_left fun parameter member => (plain parameter member).spelling_treeOf
  -- A lone tree of the type without values is that of a lone parameter of this type.
  have lone : (parameters.map fun parameter => treeOf parameter.type) = [.builtin .void] ↔
      parameters.length ≤ 1 ∧ parameters.all Parameter.isVoid := by
    cases parameters with
    | nil => exact absurd rfl nonempty
    | cons parameter others =>
      cases others with
      | nil => simp [Parameter.treeOf_eq_void_iff]
      | cons other others => simp
  have listed : (parameters.map fun parameter => treeOf parameter.type).isEmpty = false := by
    simpa using nonempty
  rw [printedTypes, printedParameters, listed, spellings]
  simp only [lone, Bool.false_eq_true, if_false]

/-- What a symbol tells of a plain declaration is printed as the declaration. -/
theorem Prototype.IsPlain.spelling {prototype : Prototype} (plain : prototype.IsPlain) :
    prototype.declaration.spelling = prototype.printed := by
  rw [Declaration.spelling, declaration, printed]
  cases listed : prototype.parameters with
  | none =>
    have free := plain.isConst_eq_false (Or.inr listed)
    simp [layout, listed, Ending.parameters, printedTypes, free, joinNames, scopeMark]
  | some parameters =>
    have types : printedTypes (prototype.layout.ending.parameters.map fun parameter =>
        treeOf parameter.type) = printedParameters parameters := by
      simp only [layout, listed, Ending.parameters, plain.writtenParameters listed]
      by_cases empty : parameters = []
      · rw [if_pos empty, empty]
        decide
      · rw [if_neg empty]
        exact printedTypes_eq (plain.typed parameters listed) empty
    rw [types, List.append_assoc]
    rfl

/-- Demangling undoes mangling: the symbol of a plain declaration is demangled into the declaration as
it is printed, by the grammar itself and by every runtime that follows it. -/
theorem demangle_mangle {prototype : Prototype} (plain : prototype.IsPlain)
    (inside : ∀ turn ∈ prototype.layout.table.formAll prototype.layout.ending.parameters,
      turn.2.outside = 0)
    (few : (prototype.layout.table.encodeAll prototype.layout.ending.parameters).2.size ≤ 11) :
    ∃ symbol, (mangle prototype.signature).outcome = .ok symbol ∧
      demangle symbol = (prototype.printed, []) ∧
      ∀ runtime, FollowsGrammar runtime → demangleBy runtime symbol = (prototype.printed, []) := by
  have shaped : prototype.layout.ending = .plain → prototype.layout.scopes ≠ [] := by
    intro ending
    cases listed : prototype.parameters with
    | none => simpa [Prototype.layout] using plain.nested listed
    | some parameters => simp [Prototype.layout, listed] at ending
  have read := plain.readSymbol inside few
  have printed := plain.spelling
  have runs : ∀ runtime, FollowsGrammar runtime →
      demangleBy runtime prototype.layout.symbol = (prototype.printed, []) := by
    intro runtime follows
    rw [demangleBy, follows _ _ read]
    simp only [printed]
  refine ⟨prototype.layout.symbol, mangle_of_layout plain.scanned shaped, ?_, runs⟩
  rw [demangle_eq_demangleBy]
  exact runs grammarRuntime followsGrammar_grammarRuntime

/-- A constant member with repeated scopes and types in its parameters makes the round trip, also by a
runtime that prints as it is what the grammar does not read. -/
theorem demangle_mangle_member :
    ∃ symbol,
      (mangle "NS::Cls::f(char const*,NS::A,NS::A::B*,int,NS::A) const".toList).outcome =
        .ok symbol ∧
      demangle symbol =
        ("NS::Cls::f(char const*, NS::A, NS::A::B*, int, NS::A) const".toList, []) ∧
      demangleBy (fun symbol => some ((grammarRuntime symbol).getD symbol)) symbol =
        ("NS::Cls::f(char const*, NS::A, NS::A::B*, int, NS::A) const".toList, []) := by
  obtain ⟨symbol, mangled, demangled, runs⟩ := @demangle_mangle
    { scopes := ["NS".toList, "Cls".toList]
      name := "f".toList
      parameters := some (["char const*", "NS::A", "NS::A::B*", "int", "NS::A"].map
        fun spelling => Parameter.spelled spelling.toList)
      isConst := true }
    (by decide +kernel) (by decide +kernel) (by decide +kernel)
  have follows : FollowsGrammar fun symbol => some ((grammarRuntime symbol).getD symbol) := by
    intro symbol declaration read
    simp [followsGrammar_grammarRuntime symbol declaration read]
  refine ⟨symbol, ?_, ?_, ?_⟩
  · exact mangled
  · exact demangled
  · exact runs _ follows

end Mangling
