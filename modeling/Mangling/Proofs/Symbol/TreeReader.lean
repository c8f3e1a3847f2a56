import Mangling.Proofs.Encoding.PlainParameter
import Mangling.Proofs.Symbol.WrittenType

/-! A reader of trees follows the writer: what was written for a type is read back as its tree, and
both remember the same types. -/

namespace Mangling

/-- The tree of a path. -/
def TypeTree.ofPath : List Text → TypeTree
  -- There is no empty path.
  | [] => .source []
  | name :: names => names.foldl .member (.source name)

/-- The tree of what a base names. -/
def BaseType.tree : BaseType → TypeTree
  | .builtin kind => .builtin kind
  | .source name => .source name
  | .nested names => TypeTree.ofPath names

/-- A tree under qualifiers, the outermost of which stands in front. -/
def TypeTree.wrap : Text → TypeTree → TypeTree
  | [], tree => tree
  | code :: codes, tree =>
    -- There are no other qualifiers than these two.
    if code = 'P' then .pointer (wrap codes tree) else .const (wrap codes tree)

/-- The tree of a type. -/
def treeOf (type : Text × BaseType) : TypeTree :=
  TypeTree.wrap type.1 type.2.tree

/-- What a path of names names. -/
def BaseType.ofPath : List Text → BaseType
  | [name] => .source name
  -- A path of one name is no nested name.
  | names => .nested names

/-- The types of all the paths behind a start. -/
def pathTypes (start : Nat) (names : List Text) : List (Text × BaseType) :=
  (prefixesBehind start names).map fun path => ([], BaseType.ofPath path)

/-- The types of a base under its qualifiers, from the innermost one outwards. -/
def qualifiedTypes : Text → BaseType → List (Text × BaseType)
  | [], _ => []
  -- The whole run of qualifiers comes last.
  | code :: codes, base => qualifiedTypes codes base ++ [(code :: codes, base)]

/-- The types that become candidates when a base is complete. -/
def BaseType.candidates : BaseType → List (Text × BaseType)
  | .builtin _ => []
  | .source name => [([], .source name)]
  | .nested names => pathTypes 0 names

/-- A type with one name more on its path is a member of the type without it. -/
theorem TypeTree.ofPath_concat {front : List Text} (nonempty : front ≠ []) (name : Text) :
    TypeTree.ofPath (front ++ [name]) = .member (TypeTree.ofPath front) name := by
  match front with
  | outer :: others => simp [ofPath]

/-- The members of a scope are the paths behind it. -/
theorem TypeTree.descend_ofPath {front : List Text} (nonempty : front ≠ []) (names : List Text) :
    (TypeTree.ofPath front).descend names =
      (prefixesBehind front.length (front ++ names)).map TypeTree.ofPath := by
  induction names generalizing front with
  | nil => simp [descend, prefixesBehind]
  | cons name names ih =>
    have behind := ih (show front ++ [name] ≠ [] by simp)
    rw [ofPath_concat nonempty] at behind
    rw [descend, behind, prefixesBehind_append_cons, List.map_cons, ofPath_concat nonempty]

/-- The scopes of a path are all the paths that it begins with. -/
theorem TypeTree.scopes_eq (names : List Text) :
    TypeTree.scopes names = (prefixesBehind 0 names).map TypeTree.ofPath := by
  cases names with
  | nil => rfl
  | cons name names =>
    have first : TypeTree.ofPath [name] = .source name := rfl
    have behind := descend_ofPath (show [name] ≠ [] by simp) names
    rw [first] at behind
    rw [scopes, prefixesBehind_zero_cons, List.map_cons, first, behind]
    rfl

/-- The type of a path is encoded as the path. -/
theorem BaseType.encoding_ofPath (names : List Text) :
    (BaseType.ofPath names).encoding = scopePath names := by
  match names with
  | [] => rfl
  | [name] => rfl
  | outer :: inner :: others => rfl

/-- The type of a path has the tree of the path. -/
theorem BaseType.tree_ofPath {names : List Text} (nonempty : names ≠ []) :
    (BaseType.ofPath names).tree = TypeTree.ofPath names := by
  match names with
  | [name] => rfl
  | outer :: inner :: others => rfl

/-- The type of a path of readable names is readable. -/
theorem BaseType.isReadable_ofPath {names : List Text} (nonempty : names ≠ [])
    (named : ∀ name ∈ names, IsName name) : (BaseType.ofPath names).IsReadable := by
  match names with
  | [name] => exact named name (by simp)
  | outer :: inner :: others => exact ⟨by simp, named⟩

/-- The types of paths are encoded as the paths. -/
theorem encodingOf_pathTypes (start : Nat) (names : List Text) :
    (pathTypes start names).map encodingOf = pathsBehind start names := by
  rw [pathsBehind_eq, pathTypes, List.map_map]
  apply List.map_congr_left
  intro path _
  simp [encodingOf, BaseType.encoding_ofPath]

/-- No beginning of a path is empty. -/
theorem ne_nil_of_mem_prefixesBehind {start : Nat} {names path : List Text}
    (member : path ∈ prefixesBehind start names) :
    path ≠ [] ∧ ∀ name ∈ path, name ∈ names := by
  rw [prefixesBehind, List.mem_map] at member
  obtain ⟨depth, inside, rfl⟩ := member
  rw [List.mem_range'_1] at inside
  refine ⟨?_, fun name => List.mem_of_mem_take⟩
  apply take_ne_nil
  · omega
  · omega

/-- The types of paths have the trees of the paths. -/
theorem treeOf_pathTypes (start : Nat) (names : List Text) :
    (pathTypes start names).map treeOf = (prefixesBehind start names).map TypeTree.ofPath := by
  rw [pathTypes, List.map_map]
  apply List.map_congr_left
  intro path member
  exact BaseType.tree_ofPath (ne_nil_of_mem_prefixesBehind member).1

/-- The first path is the outermost name. -/
theorem pathTypes_zero_cons (name : Text) (names : List Text) :
    pathTypes 0 (name :: names) = ([], .source name) :: pathTypes 1 (name :: names) := by
  rw [pathTypes, prefixesBehind_zero_cons, List.map_cons]
  rfl

/-- The types of a base under its qualifiers are encoded as its qualified forms. -/
theorem encodingOf_qualifiedTypes (qualifiers : Text) (base : BaseType) :
    (qualifiedTypes qualifiers base).map encodingOf = qualifiedForms qualifiers base.encoding := by
  induction qualifiers with
  | nil => rfl
  | cons code codes ih => simp [qualifiedTypes, qualifiedForms, ih, encodingOf]

/-- A back reference with at most one digit is read back. -/
theorem readReference_digits {index : Nat} (near : index ≤ 10) (rest : Text) :
    readReference (referenceDigits index ++ '_' :: rest) = some (index, rest) := by
  have digits : ∀ value < 10, decimal value = [Nat.digitChar value] ∧
      Nat.digitChar value ≠ '_' ∧ referenceDigit (Nat.digitChar value) = some value := by decide
  by_cases first : index = 0
  · rw [first]
    rfl
  · obtain ⟨written, unmarked, value⟩ := digits (index - 1) (by omega)
    have more : index - 1 + 1 = index := by omega
    rw [referenceDigits, if_neg first, written, List.cons_append, List.nil_append,
      readReference.eq_def]
    split
    next same => exact absurd (List.cons.inj same).1 unmarked
    next same =>
      simp only [List.cons.injEq, true_and] at same
      simp [← same.1, ← same.2, value, more]
    next other => exact absurd rfl (other _ _)

/-- A back reference names the candidate at its index. -/
theorem readCandidate_digits {index : Nat} (near : index ≤ 10) (candidates : List TypeTree)
    (rest : Text) :
    readCandidate candidates (referenceDigits index ++ '_' :: rest) =
      candidates[index]?.map fun tree => (tree, rest) := by
  rw [readCandidate, readReference_digits near]

/-- The names behind the head of a nested name are read back as the path that they complete. -/
theorem readMembers_path {width : Char → Nat} {front names : List Text} (known : front ≠ [])
    (nonempty : names ≠ []) (named : ∀ name ∈ names, IsName name)
    (narrow : ∀ name ∈ names, ∀ char ∈ name, width char = 1) (candidates : List TypeTree)
    (rest : Text) :
    readMembers width candidates (TypeTree.ofPath front)
        (names.flatMap sourceName ++ 'E' :: rest) =
      some (TypeTree.ofPath (front ++ names),
        candidates ++ (pathTypes front.length (front ++ names)).map treeOf, rest) := by
  have short : front.length < (front ++ names).length := by
    have positive := List.length_pos_iff.mpr nonempty
    rw [List.length_append]
    omega
  rw [readMembers, readSources_flatMap named narrow]
  simp [TypeTree.descend_ofPath known, getLast?_prefixesBehind short, treeOf_pathTypes]

/-- A text that begins with a digit holds a class. -/
theorem readBase_digit (width : Char → Nat) (candidates : List TypeTree) {digit : Char}
    (isDigit : digit.isDigit = true) (rest : Text) :
    readBase width candidates (digit :: rest) =
      (readSource width (digit :: rest)).map fun (name, rest) =>
        (.source name, candidates ++ [.source name], rest) := by
  -- A digit is neither of the two marks, and begins no type code.
  rw [readBase.eq_def]
  split
  next same => simp only [List.cons.injEq] at same; simp [same.1] at isDigit
  next same => simp only [List.cons.injEq] at same; simp [same.1] at isDigit
  next => simp [readBuiltin_digit isDigit]

/-- A nested name that begins with a digit begins with the name of its outermost scope. -/
theorem readNested_digit (width : Char → Nat) (candidates : List TypeTree) {digit : Char}
    (isDigit : digit.isDigit = true) (rest : Text) :
    readNested width candidates (digit :: rest) =
      match readSource width (digit :: rest) with
      | none => none
      | some (name, rest) =>
        readMembers width (candidates ++ [.source name]) (.source name) rest := by
  -- A digit is not the mark of a reference.
  rw [readNested.eq_def]
  split
  next same => simp only [List.cons.injEq] at same; simp [same.1] at isDigit
  next => rfl

/-- What a base names is read back as its tree, and the types that it completes are candidates. -/
theorem readBase_encoding {width : Char → Nat} {base : BaseType} (readable : base.IsReadable)
    (narrow : ∀ name ∈ base.names, ∀ char ∈ name, width char = 1) (candidates : List TypeTree)
    (rest : Text) :
    readBase width candidates (base.encoding ++ rest) =
      some (base.tree, candidates ++ base.candidates.map treeOf, rest) := by
  cases base with
  | builtin kind =>
    have read := readBuiltin_code kind rest
    -- No type code begins with one of the marks.
    cases kind <;>
      simp_all [BaseType.encoding, Builtin.code, readBase, BaseType.tree, BaseType.candidates]
  | source name =>
    have read := readSource_sourceName readable (narrow name (by simp [BaseType.names])) rest
    obtain ⟨digit, behind, front, isDigit⟩ := sourceName_eq_cons name
    rw [front, List.cons_append] at read
    rw [BaseType.encoding, front, List.cons_append, readBase_digit width candidates isDigit, read]
    rfl
  | nested names =>
    obtain ⟨long, named⟩ := readable
    obtain ⟨name, inner, others, path⟩ := exists_outer_inner long
    rw [path] at named narrow ⊢
    have first := readSource_sourceName (named name (by simp))
      (narrow name (by simp [BaseType.names]))
      ((inner :: others).flatMap sourceName ++ 'E' :: rest)
    obtain ⟨digit, behind, front, isDigit⟩ := sourceName_eq_cons name
    rw [front, List.cons_append] at first
    have members := readMembers_path (show [name] ≠ [] by simp)
      (show inner :: others ≠ [] by simp)
      (fun other member => named other (List.mem_cons_of_mem _ member))
      (fun other member => narrow other (List.mem_cons_of_mem _ member))
      (candidates ++ [.source name]) rest
    have text : (BaseType.nested (name :: inner :: others)).encoding ++ rest =
        'N' :: digit :: (behind ++ ((inner :: others).flatMap sourceName ++ 'E' :: rest)) := by
      simp [BaseType.encoding, nestedName, front]
    rw [text, readBase, readNested_digit width candidates isDigit, first]
    refine members.trans ?_
    simp [BaseType.candidates, pathTypes_zero_cons, BaseType.tree, treeOf, TypeTree.wrap]

/-- A nested name behind a reference to its head is read back as the path that it completes. -/
theorem readBase_member {width : Char → Nat} {front names : List Text} (known : front ≠ [])
    (nonempty : names ≠ []) (named : ∀ name ∈ names, IsName name)
    (narrow : ∀ name ∈ names, ∀ char ∈ name, width char = 1) {candidates : List TypeTree}
    {index : Nat} (near : index ≤ 10) (located : candidates[index]? = some (TypeTree.ofPath front))
    (rest : Text) :
    readBase width candidates
        ('N' :: 'S' :: (referenceDigits index ++ '_' :: (names.flatMap sourceName ++ 'E' :: rest))) =
      some (TypeTree.ofPath (front ++ names),
        candidates ++ (pathTypes front.length (front ++ names)).map treeOf, rest) := by
  have head := readCandidate_digits near candidates (names.flatMap sourceName ++ 'E' :: rest)
  rw [located, Option.map_some] at head
  rw [readBase, readNested, head]
  exact readMembers_path known nonempty named narrow candidates rest

/-- Qualifiers in front of a base wrap its tree, and each makes a candidate. -/
theorem readType_qualifiers {width : Char → Nat} {qualifiers : Text}
    (coded : ∀ code ∈ qualifiers, code = 'K' ∨ code = 'P') {candidates grown : List TypeTree}
    {text rest : Text} {base : BaseType}
    (headed : ∃ char behind, text = char :: behind ∧ char ≠ 'P' ∧ char ≠ 'K')
    (read : readBase width candidates text = some (base.tree, grown, rest)) :
    readType width candidates (qualifiers ++ text) =
      some (treeOf (qualifiers, base), grown ++ (qualifiedTypes qualifiers base).map treeOf,
        rest) := by
  induction qualifiers with
  | nil =>
    obtain ⟨char, behind, front, unpointed, unconst⟩ := headed
    rw [List.nil_append, front, readType.eq_def]
    rw [front] at read
    split
    next same => exact absurd (List.cons.inj same).1 unpointed
    next same => exact absurd (List.cons.inj same).1 unconst
    next => simp [read, treeOf, TypeTree.wrap, qualifiedTypes]
  | cons code codes ih =>
    have wrapped := ih fun other member => coded other (List.mem_cons_of_mem _ member)
    rcases coded code (List.mem_cons_self ..) with rfl | rfl
    · simp [readType, wrapped, treeOf, TypeTree.wrap, qualifiedTypes]
    · simp [readType, wrapped, treeOf, TypeTree.wrap, qualifiedTypes]

/-- The types that are remembered when a parameter is written in a form. -/
def Form.types (parameter : Parameter) : Form → List (Text × BaseType)
  | .whole => parameter.baseType.candidates ++
      qualifiedTypes parameter.qualifiers parameter.baseType
  -- What refers back as a whole is remembered already.
  | .reference _ _ => []
  | .member depth _ => pathTypes depth parameter.scopeNames ++
      qualifiedTypes parameter.qualifiers parameter.baseType

/-- What a form remembers are the full encodings of its types. -/
theorem Form.remembered_eq {entries : List Text} {parameter : Parameter} {form : Form}
    (fits : form.Fits entries parameter) (based : parameter.base ≠ []) :
    form.remembered parameter = (form.types parameter).map encodingOf := by
  cases form with
  | whole =>
    rw [remembered, types, List.map_append, encodingOf_qualifiedTypes, Parameter.candidates,
      Parameter.encodedBase_eq based]
    by_cases nested : parameter.isScoped = true
    · rw [if_pos nested, Parameter.baseType_of_isScoped nested, BaseType.candidates,
        encodingOf_pathTypes]
    · rw [if_neg nested]
      rcases Parameter.baseType_of_not_isScoped nested with ⟨kind, found, named⟩ | ⟨other, named⟩
      · simp [Parameter.isBuiltin, found, named, BaseType.candidates]
      · simp [other, named, BaseType.candidates, encodingOf]
  | reference split index => rfl
  | member depth index =>
    obtain ⟨_, nested, _⟩ := fits
    rw [remembered, types, List.map_append, encodingOf_qualifiedTypes, encodingOf_pathTypes,
      Parameter.candidates, if_pos nested, Parameter.encodedBase_eq based]

/-- The qualified types of a readable type are readable. -/
theorem isReadableType_qualifiedTypes {qualifiers : Text} {base : BaseType}
    (coded : ∀ code ∈ qualifiers, code = 'K' ∨ code = 'P') (readable : base.IsReadable) :
    ∀ type ∈ qualifiedTypes qualifiers base, IsReadableType type := by
  induction qualifiers with
  | nil => simp [qualifiedTypes]
  | cons code codes ih =>
    intro type member
    rw [qualifiedTypes, List.mem_append, List.mem_singleton] at member
    rcases member with inner | whole
    · exact ih (fun other inside => coded other (List.mem_cons_of_mem _ inside)) type inner
    · rw [whole]
      exact ⟨coded, readable⟩

/-- The types of paths of readable names are readable. -/
theorem isReadableType_pathTypes {start : Nat} {names : List Text}
    (named : ∀ name ∈ names, IsName name) :
    ∀ type ∈ pathTypes start names, IsReadableType type := by
  intro type member
  obtain ⟨path, inside, rfl⟩ := List.mem_map.mp member
  obtain ⟨nonempty, within⟩ := ne_nil_of_mem_prefixesBehind inside
  refine ⟨by simp, BaseType.isReadable_ofPath nonempty ?_⟩
  intro name inner
  exact named name (within name inner)

/-- What a form that fits remembers is readable. -/
theorem Form.isReadable_types {entries : List Text} {parameter : Parameter} {form : Form}
    (fits : form.Fits entries parameter) (readable : parameter.IsReadable) :
    ∀ type ∈ form.types parameter, IsReadableType type := by
  have base := readable.baseType
  have qualified := isReadableType_qualifiedTypes readable.coded base
  cases form with
  | whole =>
    intro type member
    rcases List.mem_append.mp member with inner | outer
    · cases found : parameter.baseType with
      | builtin kind => simp [found, BaseType.candidates] at inner
      | source name =>
        rw [found] at base
        simp only [found, BaseType.candidates, List.mem_singleton] at inner
        exact inner ▸ ⟨by simp, base⟩
      | nested names =>
        rw [found] at base inner
        exact isReadableType_pathTypes base.2 type inner
    · exact qualified type outer
  | reference split index => simp [types]
  | member depth index =>
    obtain ⟨_, nested, _⟩ := fits
    rw [Parameter.baseType_of_isScoped nested] at base
    intro type member
    rcases List.mem_append.mp member with inner | outer
    · exact isReadableType_pathTypes base.2 type inner
    · exact qualified type outer

/-- A table lists types when its entries are their full encodings, and each can be told from its own. -/
structure Table.Lists (table : Table) (known : List (Text × BaseType)) : Prop where
  encoded : table.entries = known.map encodingOf
  readable : ∀ type ∈ known, IsReadableType type

/-- An entry of a table that lists types names the candidate of its type. -/
theorem Table.Lists.candidate {table : Table} {known : List (Text × BaseType)}
    (lists : table.Lists known) {type : Text × BaseType} (readable : IsReadableType type)
    {index : Nat} (located : table.entries[index]? = some (encodingOf type)) :
    (known.map treeOf)[index]? = some (treeOf type) := by
  rw [lists.encoded, List.getElem?_map] at located
  obtain ⟨found, place, same⟩ := Option.map_eq_some_iff.mp located
  have listed := lists.readable found (List.mem_of_getElem? place)
  -- Equal encodings are those of equal types.
  rw [List.getElem?_map, place, encodingOf_injective listed readable same]
  rfl

/-- Encoding a parameter adds the types of its form to those that a table lists. -/
theorem Table.Lists.encode {table : Table} {known : List (Text × BaseType)}
    (lists : table.Lists known) {parameter : Parameter} (readable : parameter.IsReadable) :
    (table.encode parameter).2.Lists (known ++ (table.form parameter).types parameter) := by
  have fits := table.form_fits parameter
  constructor
  · rw [entries_encode, Form.remembered_eq fits readable.based, lists.encoded, List.map_append]
  · intro type member
    rcases List.mem_append.mp member with before | added
    · exact lists.readable type before
    · exact Form.isReadable_types fits readable type added

/-- A type that is written in full is read back as its tree, with the candidates that it completes. -/
theorem readType_whole {width : Char → Nat} {parameter : Parameter}
    (readable : parameter.IsReadable)
    (narrow : ∀ name ∈ parameter.baseType.names, ∀ char ∈ name, width char = 1)
    (candidates : List TypeTree) (rest : Text) :
    readType width candidates (spellFragments (Form.whole.written parameter).fragments ++ rest) =
      some (treeOf parameter.type, candidates ++ (Form.whole.types parameter).map treeOf, rest) := by
  have read := readBase_encoding readable.baseType narrow candidates rest
  obtain ⟨char, behind, front, unpointed, unconst, _⟩ :=
    (WrittenBase.full parameter.baseType).exists_head
  rw [WrittenBase.spell_full] at front
  have headed : ∃ first others, parameter.baseType.encoding ++ rest = first :: others ∧
      first ≠ 'P' ∧ first ≠ 'K' := by
    refine ⟨char, behind ++ rest, ?_, unpointed, unconst⟩
    rw [front, List.cons_append]
  have wrapped := readType_qualifiers readable.coded headed read
  simpa [Form.written, Form.types, Parameter.type] using wrapped

/-- A reference to a whole type is read back as the candidate, and completes nothing. -/
theorem readType_reference {width : Char → Nat} {parameter : Parameter} {index : Nat}
    (near : index ≤ 10) {candidates : List TypeTree}
    (candidate : candidates[index]? = some (treeOf parameter.type)) (rest : Text) :
    readType width candidates
        (spellFragments ((Form.reference 0 index).written parameter).fragments ++ rest) =
      some (treeOf parameter.type, candidates, rest) := by
  have read := readCandidate_digits near candidates rest
  rw [candidate, Option.map_some] at read
  simp [Form.written, readType, readBase, read]

/-- A nested name behind a reference to its head is read back as its tree, with the candidates that it
completes. -/
theorem readType_member {width : Char → Nat} {parameter : Parameter}
    (readable : parameter.IsReadable)
    (narrow : ∀ name ∈ parameter.baseType.names, ∀ char ∈ name, width char = 1)
    (nested : parameter.isScoped = true) {depth index : Nat} (positive : 1 ≤ depth)
    (short : depth < parameter.scopeNames.length) (near : index ≤ 10)
    {candidates : List TypeTree}
    (candidate : candidates[index]? =
      some (TypeTree.ofPath (parameter.scopeNames.take depth))) (rest : Text) :
    readType width candidates
        (spellFragments ((Form.member depth index).written parameter).fragments ++ rest) =
      some (treeOf parameter.type,
        candidates ++ ((Form.member depth index).types parameter).map treeOf, rest) := by
  have path := Parameter.baseType_of_isScoped nested
  have base := readable.baseType
  rw [path] at base narrow
  have front := take_ne_nil positive (Nat.le_of_lt short)
  have back : parameter.scopeNames.drop depth ≠ [] := by
    rw [Ne, List.drop_eq_nil_iff]
    omega
  have read := readBase_member front back
    (fun name member => base.2 name (List.mem_of_mem_drop member))
    (fun name member => narrow name (List.mem_of_mem_drop member)) near candidate rest
  -- The head and the names behind it are the whole path.
  have whole : TypeTree.ofPath parameter.scopeNames = parameter.baseType.tree := by
    rw [path]
    rfl
  rw [List.take_append_drop, List.length_take, Nat.min_eq_left (Nat.le_of_lt short), whole] at read
  have wrapped := readType_qualifiers readable.coded ⟨'N', _, rfl, by decide, by decide⟩ read
  simpa [Form.written, Form.types, Parameter.type] using wrapped

/-- What the writer writes for a parameter is read back as its tree, and both remember the same types,
as long as no qualifier stays outside a reference and the reference has at most one digit. -/
theorem readType_encode {width : Char → Nat} {table : Table} {parameter : Parameter}
    {known : List (Text × BaseType)} (lists : table.Lists known) (readable : parameter.IsReadable)
    (narrow : ∀ name ∈ parameter.baseType.names, ∀ char ∈ name, width char = 1)
    (inside : (table.form parameter).outside = 0)
    (near : ∀ index ∈ (table.form parameter).index?, index ≤ 10) (rest : Text) :
    readType width (known.map treeOf) ((table.encode parameter).1 ++ rest) =
      some (treeOf parameter.type,
        (known ++ (table.form parameter).types parameter).map treeOf, rest) := by
  have fits := table.form_fits parameter
  rw [Table.encode_eq, Form.fragments_eq readable.based, List.map_append]
  cases form : table.form parameter with
  | whole => exact readType_whole readable narrow _ rest
  | reference split index =>
    rw [form] at fits inside near
    obtain ⟨_, _, located⟩ := fits
    -- The entry is the full encoding, because no qualifier is left outside.
    have whole : split = 0 := inside
    rw [whole, List.drop_zero, ← Parameter.encoded,
      ← Parameter.encodingOf_type readable.based] at located
    have candidate := lists.candidate readable.type located
    have read : readType width (known.map treeOf) _ = _ :=
      readType_reference (near index rfl) candidate rest
    simpa [whole, Form.types] using read
  | member depth index =>
    rw [form] at fits near
    obtain ⟨_, nested, positive, short, located, _⟩ := fits
    have base := readable.baseType
    rw [Parameter.baseType_of_isScoped nested] at base
    have front := take_ne_nil positive (Nat.le_of_lt short)
    have head : IsReadableType ([], BaseType.ofPath (parameter.scopeNames.take depth)) :=
      ⟨by simp, BaseType.isReadable_ofPath front fun name member =>
        base.2 name (List.mem_of_mem_take member)⟩
    rw [← BaseType.encoding_ofPath] at located
    have candidate := lists.candidate head located
    rw [treeOf, TypeTree.wrap, BaseType.tree_ofPath front] at candidate
    exact readType_member readable narrow nested positive short (near index rfl) candidate rest

/-- What a run writes is read back as the trees of its types. -/
theorem readTypes_encodeAll {width : Char → Nat} {table : Table} {parameters : List Parameter}
    {known : List (Text × BaseType)} (lists : table.Lists known)
    (readable : ∀ parameter ∈ parameters, parameter.IsReadable)
    (narrow : ∀ parameter ∈ parameters, ∀ name ∈ parameter.baseType.names, ∀ char ∈ name,
      width char = 1)
    (inside : ∀ turn ∈ table.formAll parameters, turn.2.outside = 0)
    (near : ∀ turn ∈ table.formAll parameters, ∀ index ∈ turn.2.index?, index ≤ 10) :
    ∃ candidates, readTypes width (known.map treeOf) (table.encodeAll parameters).1.flatten =
      some (parameters.map fun parameter => treeOf parameter.type, candidates) := by
  -- The types that one turn remembers are known at the next one, on both sides.
  induction parameters generalizing table known with
  | nil =>
    refine ⟨known.map treeOf, ?_⟩
    rw [readTypes]
    rfl
  | cons parameter parameters ih =>
    have first := readable parameter (List.mem_cons_self ..)
    have read := readType_encode lists first (narrow parameter (List.mem_cons_self ..))
      (inside _ (List.mem_cons_self ..)) (near _ (List.mem_cons_self ..))
      ((table.encode parameter).2.encodeAll parameters).1.flatten
    obtain ⟨candidates, rest⟩ := ih (lists.encode first)
      (fun other member => readable other (List.mem_cons_of_mem _ member))
      (fun other member => narrow other (List.mem_cons_of_mem _ member))
      (fun turn member => inside turn (List.mem_cons_of_mem _ member))
      (fun turn member => near turn (List.mem_cons_of_mem _ member))
    refine ⟨candidates, ?_⟩
    have nonempty : ((table.encodeAll (parameter :: parameters)).1.flatten).isEmpty = false := by
      obtain ⟨char, behind, spelled, _⟩ := table.exists_head_encode first
      simp [Table.encodeAll, spelled]
    rw [readTypes, nonempty]
    simp only [Bool.false_eq_true, if_false]
    split
    next missing => simp [Table.encodeAll, read] at missing
    next tree after later found =>
      simp only [Table.encodeAll, List.flatten_cons, read, Option.some.injEq,
        Prod.mk.injEq] at found
      obtain ⟨rfl, rfl, rfl⟩ := found
      rw [rest, Option.map_some, List.map_cons]

end Mangling
