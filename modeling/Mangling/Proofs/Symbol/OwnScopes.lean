import Mangling.Proofs.Encoding.Spelling
import Mangling.Proofs.Symbol.Backed
import Mangling.Proofs.Symbol.Prototype

/-! The scopes of a function are referred back to by its parameters, whatever stands around them. -/

namespace Mangling

/-- The signature of a function inside scopes, with its parameters as they are spelled. -/
def functionSignature (scopes : List Text) (name : Text) (spellings : List Text) : Text :=
  listSignature (joinNames (scopes ++ [name])) spellings

/-- The layout of a function inside scopes. -/
def functionLayout (scopes : List Text) (name content : Text) : Layout :=
  { scopes := scopes.map fun name => { name }
    last := { name }
    ending := .called content false }

/-- The table with which the parameters of a function inside scopes start. -/
def ownScopes (scopes : List Text) : Table :=
  { entries := pathsBehind 0 scopes }

/-- The signature of a function is scanned into its layout, whatever its parameters are. -/
theorem scanSignature_functionSignature {scopes : List Text} {name : Text}
    (named : ∀ word ∈ scopes ++ [name], IsNameContent word) (spellings : List Text) :
    (scanSignature (functionSignature scopes name spellings)).result =
      .ok (functionLayout scopes name ([','].intercalate spellings)).tokens := by
  obtain ⟨around, last⟩ := List.forall_mem_append.mp named
  have inner : IsNameContent name := last name (by simp)
  let content := [','].intercalate spellings
  let divided := scopes.foldr Signature.nested (.ended name (.params content []))
  have formed : divided.IsWellFormed false :=
    Signature.isWellFormed_foldr_nested around
      (Signature.isWellFormed_ended.mpr ⟨inner.run.1, by simp [Tail.IsWellFormed, AreBlanks]⟩)
  have text : divided.text = functionSignature scopes name spellings := by
    simp [divided, content, Signature.text_foldr_nested, Tail.text, functionSignature,
      listSignature, joinNames_concat]
  have tokens : divided.tokens = (functionLayout scopes name content).tokens := by
    simp [divided, Signature.tokens_foldr_nested around, inner.runTokens, Tail.tokens,
      functionLayout, Layout.tokens, Component.tokens, Ending.tokens, List.flatMap_map]
  rw [← text, ← tokens]
  exact formed.scanned

/-- A path is longer than the paths to its scopes. -/
theorem length_scopePath_take_lt {names : List Text} {shorter depth : Nat} (positive : 1 ≤ shorter)
    (less : shorter < depth) (bounded : depth ≤ names.length) :
    (scopePath (names.take shorter)).length < (scopePath (names.take depth)).length := by
  -- The deeper path is the other one with some names behind it.
  obtain ⟨more, others, split⟩ : ∃ more others,
      (names.take depth).drop shorter = more :: others := by
    apply List.exists_cons_of_length_pos
    rw [List.length_drop, List.length_take]
    omega
  have whole := List.take_append_drop shorter (names.take depth)
  rw [List.take_take, Nat.min_eq_left (Nat.le_of_lt less), split] at whole
  have nonempty : (names.take shorter).map sourceName ≠ [] := by
    simpa using take_ne_nil positive (Nat.le_trans (Nat.le_of_lt less) bounded)
  have spelled : sourceName more ≠ [] := by
    obtain ⟨digit, rest, same, _⟩ := sourceName_eq_cons more
    simp [same]
  have longer := length_scopeEncoding_lt nonempty spelled (others.map sourceName)
  rw [← List.map_cons, ← List.map_append, whole, scopeEncoding_sourceNames,
    scopeEncoding_sourceNames] at longer
  exact longer

/-- Over any table that begins with the paths to some names, each of them is found where it stands,
whatever the qualifiers around it are. -/
theorem Table.find_scopePath {table : Table} {names : List Text}
    (begins : pathsBehind 0 names <+: table.entries) {depth : Nat} (positive : 1 ≤ depth)
    (bounded : depth ≤ names.length) (qualifiers : Text) :
    table.find qualifiers (scopePath (names.take depth)) = some (depth - 1, qualifiers.length) := by
  have located : ∀ index < names.length,
      table.entries[index]? = some (scopePath (names.take (index + 1))) := by
    intro index within
    obtain ⟨later, split⟩ := begins
    have inside : index < (pathsBehind 0 names).length := by simpa [length_pathsBehind] using within
    rw [← split, List.getElem?_append_left inside, pathsBehind]
    simp [within, Nat.add_comm]
  have last : depth - 1 + 1 = depth := Nat.sub_add_cancel positive
  refine find_eq_some_iff.mpr ⟨Nat.le_refl _, ?_, ?_⟩
  · rw [located (depth - 1) (by omega), last, List.drop_length, List.nil_append]
  · -- The entries in front are too short for the path, and the more so under qualifiers.
    intro earlier before split _ same
    rw [located earlier (by omega), Option.some.injEq] at same
    have lengths := congrArg List.length same
    have shorter :=
      @length_scopePath_take_lt names (earlier + 1) depth (by omega) (by omega) bounded
    rw [List.length_append] at lengths
    omega

/-- A parameter whose base is a path to a scope is encoded as that path. -/
theorem Parameter.encodedBase_of_joinNames {parameter : Parameter} {names : List Text}
    (nonempty : names ≠ []) (arePieces : ∀ name ∈ names, name ≠ [] ∧ ':' ∉ name)
    (own : parameter.base = joinNames names) (other : parameter.isBuiltin = false) :
    parameter.encodedBase = scopePath names := by
  obtain ⟨_, path⟩ := scopeNames_of_joinNames nonempty arePieces own
  match names with
  | [name] =>
    have flat : parameter.isScoped = false := by simp [isScoped, path]
    have based : parameter.base = name := by simpa [joinNames] using own
    have spelled : name ≠ [] := (arePieces name (by simp)).1
    rw [encodedBase, flat, plainType, ofSpelling_of_isBuiltin other, based]
    simp [scopePath_singleton, spelled]
  | outer :: inner :: others =>
    have nested : parameter.isScoped = true := by simp [isScoped, path, other]
    rw [encodedBase_of_isScoped nested, path, scopePath_cons_cons]

/-- Over any table that begins with the paths to some names, a parameter whose base is one of them
is its qualifiers and a reference to this path, and nothing is remembered. -/
theorem Table.encode_scopePath {table : Table} {names : List Text}
    (begins : pathsBehind 0 names <+: table.entries)
    (arePieces : ∀ name ∈ names, name ≠ [] ∧ ':' ∉ name) {depth : Nat} (positive : 1 ≤ depth)
    (bounded : depth ≤ names.length) {parameter : Parameter}
    (own : parameter.base = joinNames (names.take depth)) (other : parameter.isBuiltin = false) :
    table.encode parameter = (parameter.qualifiers ++ backReference (depth - 1 : Nat), table) := by
  have encoded : parameter.encodedBase = scopePath (names.take depth) :=
    Parameter.encodedBase_of_joinNames (take_ne_nil positive bounded)
      (fun name member => arePieces name (List.mem_of_mem_take member)) own other
  have found := find_scopePath begins positive bounded parameter.qualifiers
  rw [encode, other, Bool.false_and, encoded]
  simp only [Bool.false_eq_true, if_false, found, List.take_length]

/-- Encoding one run of parameters behind another one goes on over the table that is left. -/
theorem Table.encodeAll_append (table : Table) (front back : List Parameter) :
    table.encodeAll (front ++ back) =
      ((table.encodeAll front).1 ++ ((table.encodeAll front).2.encodeAll back).1,
        ((table.encodeAll front).2.encodeAll back).2) := by
  induction front generalizing table with
  | nil => simp [encodeAll]
  | cons parameter front ih => simp [encodeAll, ih]

/-- Behind the path of a function its parameters are written over the paths to its scopes. -/
theorem symbol_functionLayout {scopes : List Text} (nested : scopes ≠ []) (name content : Text) :
    (functionLayout scopes name content).symbol =
      symbolMark ++ (nestedName (scopes ++ [name]) ++
        ((ownScopes scopes).encodeAll (writtenParameters content)).1.flatten) := by
  have remembered := scopeEncodings_sourceNames [] scopes
  have encodings : (scopes.map fun name => ({ name } : Component)).map Component.encoding =
      scopes.map sourceName := by
    simp [Component.encoding]
  rw [List.map_nil, List.length_nil, List.nil_append] at remembered
  have path : (functionLayout scopes name content).path = nestedName (scopes ++ [name]) := by
    simp [Layout.path, functionLayout, nested, Ending.isConst, nestedName, Component.encoding,
      List.flatMap_map]
  have table : (functionLayout scopes name content).table = ownScopes scopes := by
    rw [Layout.table, functionLayout, encodings, remembered, ownScopes]
  rw [Layout.symbol, path, table]
  rfl

/-- Spellings without commas of which one is visible are written as the parameters that they
describe. -/
theorem writtenParameters_intercalate {spellings : List Text}
    (free : ∀ spelling ∈ spellings, ',' ∉ spelling) {spelling : Text} {char : Char}
    (member : spelling ∈ spellings) (inside : char ∈ spelling) (visible : isBlank char = false) :
    writtenParameters ([','].intercalate spellings) = describedParameters spellings := by
  have seen : ¬(trimBlanks ([','].intercalate spellings)).isEmpty = true := by
    have found : char ∈ [','].intercalate spellings := mem_intercalate member inside
    simpa [trimBlanks] using List.ne_nil_of_mem (mem_trim visible found)
  rw [writtenParameters, if_neg seen, commaPieces_intercalate (List.ne_nil_of_mem member) free,
    describedParameters]

/-- A word has no colons. -/
theorem IsWord.isPiece {word : Text} (isWord : IsWord word) : word ≠ [] ∧ ':' ∉ word :=
  ⟨isWord.1, fun colon => absurd (isWord.2 ':' colon) (by decide)⟩

/-- A word is a name. -/
theorem IsWord.isNameContent {word : Text} (isWord : IsWord word) : IsNameContent word :=
  ⟨[word], by simp, by simpa using isWord, by simp⟩

/-- A base that is a path of words has visible characters, which are there in the spelling already. -/
theorem exists_visible_of_joinNames {names : List Text} (nonempty : names ≠ [])
    (worded : ∀ name ∈ names, IsWord name) {spelling : Text}
    (path : baseOf spelling = joinNames names) :
    baseOf spelling ≠ [] ∧ ∃ char ∈ spelling, isBlank char = false := by
  obtain ⟨name, member⟩ := List.exists_mem_of_ne_nil names nonempty
  obtain ⟨char, inside⟩ := List.exists_mem_of_ne_nil name (worded name member).1
  have based : char ∈ baseOf spelling := by
    rw [path]
    exact mem_intercalate member inside
  exact ⟨List.ne_nil_of_mem based, char, (baseOf_sublist spelling).subset based,
    isBlank_of_isIdentifierChar ((worded name member).2 char inside)⟩

/-- A spelling with a base describes a parameter between those that are described around it. -/
theorem describedParameters_append_cons (front back : List Text) {spelling : Text}
    (based : baseOf spelling ≠ []) :
    describedParameters (front ++ spelling :: back) =
      describedParameters front ++ Parameter.spelled spelling :: describedParameters back := by
  have nonempty : (Parameter.spelled spelling).isEmpty = false := by
    simpa [Parameter.isEmpty, Parameter.spelled] using based
  simp [describedParameters, nonempty]

/-- A parameter of a function whose base is one of the scopes around the function is written as its
qualifiers and a reference to this scope, and nothing is remembered for it, whatever the other
parameters are. -/
theorem mangle_own_scope {scopes : List Text} {name : Text}
    (worded : ∀ word ∈ scopes ++ [name], IsWord word) {front back : List Text} {spelling : Text}
    (free : ∀ item ∈ front ++ spelling :: back, ',' ∉ item) {parameter : Parameter}
    (read : Parameter.ofSpelling spelling = .ok parameter) {depth : Nat} (positive : 1 ≤ depth)
    (bounded : depth ≤ scopes.length) (own : parameter.base = joinNames (scopes.take depth))
    (other : parameter.isBuiltin = false) :
    let met := ((ownScopes scopes).encodeAll (describedParameters front)).2
    let code := parameter.qualifiers ++ backReference (depth - 1 : Nat)
    met.encode parameter = (code, met) ∧
      (mangle (functionSignature scopes name (front ++ spelling :: back))).outcome =
        .ok (symbolMark ++ (nestedName (scopes ++ [name]) ++
          (((ownScopes scopes).encodeAll (describedParameters front)).1.flatten ++
            (code ++ (met.encodeAll (describedParameters back)).1.flatten)))) := by
  intro met code
  obtain ⟨around, _⟩ := List.forall_mem_append.mp worded
  have encoded : met.encode parameter = (code, met) :=
    Table.encode_scopePath ((ownScopes scopes).entries_encodeAll _)
      (fun scope member => (around scope member).isPiece) positive bounded own other
  refine ⟨encoded, ?_⟩
  have spelled : parameter = Parameter.spelled spelling := by
    rw [Parameter.ofSpelling_eq, Except.ok.injEq] at read
    exact read.symm
  have kept : baseOf spelling = joinNames (scopes.take depth) := by
    rw [← own, spelled]
    rfl
  have nonempty := take_ne_nil positive bounded
  obtain ⟨based, char, written, visible⟩ := exists_visible_of_joinNames nonempty
    (fun scope member => around scope (List.mem_of_mem_take member)) kept
  have described : describedParameters (front ++ spelling :: back) =
      describedParameters front ++ parameter :: describedParameters back := by
    rw [spelled]
    exact describedParameters_append_cons front back based
  have nested : scopes ≠ [] := fun none => nonempty (by rw [none, List.take_nil])
  have scanned := scanSignature_functionSignature
    (fun word member => (worded word member).isNameContent) (front ++ spelling :: back)
  rw [mangle_of_layout scanned (by simp [functionLayout]), symbol_functionLayout nested,
    writtenParameters_intercalate free (by simp) written visible, described,
    Table.encodeAll_append]
  simp only [Table.encodeAll, List.flatten_append, List.flatten_cons]
  rw [encoded]

/-- A scope is referred back to behind qualifiers and between other parameters, of which one has
been remembered in front of it. -/
theorem mangle_own_scope_qualified :
    let met : Table := { entries := ["1a".toList, "N1a1bE".toList, "1c".toList, "P1c".toList] }
    let parameter : Parameter :=
      { spelling := "const a::b*".toList, base := "a::b".toList, qualifiers := "PK".toList }
    Parameter.ofSpelling "const a::b*".toList = .ok parameter ∧
      met.encode parameter = ("PKS0_".toList, met) ∧
      (mangle "a::b::f(c*,const a::b*,c*)".toList).outcome =
        .ok "_ZN1a1b1fEP1cPKS0_PS1_".toList := by
  intro met parameter
  have worded : ∀ word ∈ ["a".toList, "b".toList] ++ ["f".toList], IsWord word := by
    simp [IsWord]
    decide
  have read : Parameter.ofSpelling "const a::b*".toList = .ok parameter := by
    with_unfolding_all rfl
  obtain ⟨encoded, written⟩ := mangle_own_scope worded
    (show ∀ item ∈ ["c*".toList] ++ "const a::b*".toList :: ["c*".toList], ',' ∉ item by decide)
    read (show 1 ≤ 2 by decide) (by decide) rfl (by decide)
  exact ⟨read, encoded, written.trans (by with_unfolding_all rfl)⟩

end Mangling
