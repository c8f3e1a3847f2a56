import Mangling.Proofs.Encoding.BaseType
import Mangling.Proofs.Encoding.Compression
import Mangling.Proofs.Text.Tidy
import Mangling.Symbol.Mangle
import Mathlib.Data.List.TakeWhile

/-! The symbol of any tokens in closed form: the components of their path, in one nested name if
there is a separator, and then the parameters over a table of the scopes. -/

namespace Mangling

/-- The encodings of scopes, each with all the scopes around it. -/
def scopeEncodings (around : List Text) : List Text → List Text
  | [] => []
  | scope :: scopes =>
    -- The outermost scope stands alone, and every other one is the last of a nested name.
    (if around.isEmpty then scope else 'N' :: ((around ++ [scope]).flatten ++ ['E'])) ::
      scopeEncodings (around ++ [scope]) scopes

/-- Whether a token ends a declaration, whatever follows it. -/
def Token.isFinal : Token → Bool
  | .params _ _ => true
  | .stop => true
  | _ => false

/-- What a token adds to the component in which it stands. -/
def Token.encoding : Token → Text
  | .name content => sourceName content
  -- Arguments stand between two marks, each as a type without qualifiers.
  | .templateArgs _ items => 'I' :: (items.flatMap (fun item => plainType (trimBlanks item)) ++ ['E'])
  -- The mark of a constant member is not written where its word stands.
  | _ => []

/-- The components of a path: one for each group of tokens between separators, perhaps empty. -/
def pathComponents (path : List Token) : List Text :=
  (path.splitOn .scope).map fun group => group.flatMap Token.encoding

/-- The marks in front of the components of a path, of which a single one has none. -/
def openingMarks (isConst : Bool) (components : List Text) : List Text :=
  if 1 < components.length then ['N'] :: (if isConst then [['K']] else []) else []

/-- The mark behind the components of a path, if there is one in front of them. -/
def closingMarks (components : List Text) : List Text :=
  if 1 < components.length then [['E']] else []

/-- The components of a path with the marks around them. -/
def pathFragments (isConst : Bool) (components : List Text) : List Text :=
  openingMarks isConst components ++ components ++ closingMarks components

/-- The table with which the parameters behind a path start: its scopes, of which empty ones do not
count, are in it. -/
def scopeTable (components : List Text) : Table :=
  -- The last component is the name inside the scopes.
  { entries := scopeEncodings [] (components.dropLast.filter fun component => !component.isEmpty) }

/-- The parameters that items describe, of which those without a base do not count. -/
def describedParameters (items : List Text) : List Parameter :=
  (items.map Parameter.spelled).filter fun parameter => !parameter.isEmpty

/-- What a parameter list writes over a table, with the table that it leaves. -/
def Table.encodeList (table : Table) (content : Text) (items : List Text) : List Text × Table :=
  -- A blank list is written as the type without values, whatever its items are.
  if content.all isBlank then ([['v']], table)
  else table.encodeAll (describedParameters items)

/-- The symbol of any tokens in closed form. -/
def closedSymbol (symbol : Text) (isConst : Bool) (tokens : List Token) : Except Fault Text :=
  let components := pathComponents (tokens.takeWhile fun token => !token.isFinal)
  let path := symbolMark ++ (pathFragments isConst components).flatten
  match tokens.find? Token.isFinal with
  | none => .error .unfinished
  | some (.params content items) =>
    .ok (path ++ ((scopeTable components).encodeList content items).1.flatten)
  -- A lone component without parameters is left as it was spelled.
  | some _ => .ok (if 1 < components.length then path else symbol)

/-- The draft behind some finished components of a path and one that is still pending. -/
def Draft.behindPath (symbol : Text) (isConst : Bool) (finished : List Text) (pending : Text) :
    Draft :=
  { symbol
    isConst
    isMember := !finished.isEmpty
    out := symbolMark :: (openingMarks isConst (finished ++ [pending]) ++ finished)
    table := scopeTable (finished ++ [pending])
    component := pending
    scopes := finished.filter fun component => !component.isEmpty }

/-- No scopes have no encodings. -/
@[simp] theorem scopeEncodings_nil (around : List Text) : scopeEncodings around [] = [] := rfl

/-- A scope is encoded with all the scopes around it, and counts as around all that follow it. -/
theorem scopeEncodings_cons (around : List Text) (scope : Text) (scopes : List Text) :
    scopeEncodings around (scope :: scopes) =
      scopeEncoding (around ++ [scope]) :: scopeEncodings (around ++ [scope]) scopes := by
  match around with
  | [] => rfl
  | [_] => rfl
  | _ :: _ :: _ => rfl

/-- A separator in front of a path leaves an empty component in front of its components. -/
theorem pathComponents_scope_cons (path : List Token) :
    pathComponents (.scope :: path) = [] :: pathComponents path := by
  simp [pathComponents, List.splitOn_cons_eq_if_modifyHead]

/-- Any other token in front of a path lengthens its first component. -/
theorem pathComponents_cons {token : Token} (other : token ≠ .scope) (path : List Token) :
    pathComponents (token :: path) = (pathComponents path).modifyHead (token.encoding ++ ·) := by
  simp only [pathComponents, List.splitOn_cons_eq_if_modifyHead, beq_iff_eq, if_neg other]
  cases path.splitOn .scope <;> simp

/-- Even an empty path has a component. -/
theorem pathComponents_ne_nil (path : List Token) : pathComponents path ≠ [] := by
  simp [pathComponents, List.splitOn_ne_nil]

/-- A group of tokens without separators is one component. -/
theorem pathComponents_of_not_mem {group : List Token} (joined : .scope ∉ group) :
    pathComponents group = [group.flatMap Token.encoding] := by
  rw [pathComponents, List.splitOn_eq_singleton joined, List.map_singleton]

/-- A separator divides the components of a path. -/
theorem pathComponents_append_scope (front back : List Token) :
    pathComponents (front ++ .scope :: back) = pathComponents front ++ pathComponents back := by
  rw [pathComponents, List.splitOn_append_cons_self, List.map_append]
  rfl

/-- The components of a path hold what its tokens add, one behind the other. -/
theorem flatten_pathComponents (path : List Token) :
    (pathComponents path).flatten = path.flatMap Token.encoding := by
  induction path with
  | nil => simp [pathComponents]
  | cons token path ih =>
    by_cases separates : token = .scope
    · rw [separates, pathComponents_scope_cons, List.flatten_cons, ih]
      rfl
    · rw [pathComponents_cons separates, List.flatMap_cons, ← ih]
      cases components : pathComponents path with
      | nil => exact absurd components (pathComponents_ne_nil path)
      | cons component others => simp

/-- A path has several components as soon as it has a separator. -/
theorem one_lt_length_pathComponents (path : List Token) :
    1 < (pathComponents path).length ↔ .scope ∈ path := by
  induction path with
  | nil => simp [pathComponents]
  | cons token path ih =>
    by_cases separates : token = .scope
    · have positive := List.length_pos_iff.mpr (pathComponents_ne_nil path)
      rw [separates, pathComponents_scope_cons, List.length_cons]
      simp only [List.mem_cons, true_or, iff_true]
      omega
    · rw [pathComponents_cons separates, List.length_modifyHead, ih, List.mem_cons]
      simp [Ne.symm separates]

/-- The tokens of a path in front of one that ends the declaration are found again. -/
theorem path_of_isFinal {path : List Token} (going : ∀ token ∈ path, token.isFinal = false)
    {final : Token} (ends : final.isFinal = true) (tokens : List Token) :
    ((path ++ final :: tokens).takeWhile fun token => !token.isFinal) = path ∧
      (path ++ final :: tokens).find? Token.isFinal = some final := by
  constructor
  · rw [List.takeWhile_append_of_pos (by simpa using going),
      List.takeWhile_cons_of_neg (by simp [ends]), List.append_nil]
  · rw [List.find?_append, List.find?_eq_none.mpr (by simpa using going), Option.none_or,
      List.find?_cons_of_pos ends]

/-- The symbol of a path with a parameter list behind it. -/
theorem closedSymbol_params (symbol : Text) (isConst : Bool) {path : List Token}
    (going : ∀ token ∈ path, token.isFinal = false) (content : Text) (items : List Text)
    (tokens : List Token) :
    closedSymbol symbol isConst (path ++ .params content items :: tokens) =
      .ok (symbolMark ++ (pathFragments isConst (pathComponents path)).flatten ++
        ((scopeTable (pathComponents path)).encodeList content items).1.flatten) := by
  obtain ⟨front, found⟩ := @path_of_isFinal path going (.params content items) rfl tokens
  simp only [closedSymbol, front, found]

/-- The symbol of a path with the end behind it. -/
theorem closedSymbol_stop (symbol : Text) (isConst : Bool) {path : List Token}
    (going : ∀ token ∈ path, token.isFinal = false) (tokens : List Token) :
    closedSymbol symbol isConst (path ++ .stop :: tokens) =
      .ok (if 1 < (pathComponents path).length then
        symbolMark ++ (pathFragments isConst (pathComponents path)).flatten else symbol) := by
  obtain ⟨front, found⟩ := @path_of_isFinal path going .stop rfl tokens
  simp only [closedSymbol, front, found]

/-- The scopes of one run of additions are those of two runs. -/
theorem scopeEncodings_append (around front back : List Text) :
    scopeEncodings around (front ++ back) =
      scopeEncodings around front ++ scopeEncodings (around ++ front) back := by
  induction front generalizing around with
  | nil => simp
  | cons scope front ih => simp [scopeEncodings_cons, ih]

/-- A draft lengthens the component that is pending. -/
theorem Draft.append_behindPath (symbol : Text) (isConst : Bool) (finished : List Text)
    (pending text : Text) :
    (behindPath symbol isConst finished pending).append text =
      behindPath symbol isConst finished (pending ++ text) := by
  simp [behindPath, append, openingMarks, scopeTable]

/-- A separator finishes the component that is pending, and the next one is still empty. -/
theorem Draft.enterScope_behindPath (symbol : Text) (isConst : Bool) (finished : List Text)
    (pending : Text) :
    (behindPath symbol isConst finished pending).enterScope =
      behindPath symbol isConst (finished ++ [pending]) [] := by
  -- Only the first separator opens the nested name.
  have opened : (behindPath symbol isConst finished pending).openNested =
      { behindPath symbol isConst finished pending with
        isMember := true
        out := symbolMark :: (openingMarks isConst (finished ++ [pending, []]) ++ finished) } := by
    cases finished with
    | nil => cases isConst <;> simp [behindPath, openNested, emit, openingMarks]
    | cons outer others => simp [behindPath, openNested, openingMarks]
  rw [enterScope, opened]
  -- Only a component with a text is a scope.
  cases pending with
  | nil => simp [flush, emit, behindPath, scopeTable]
  | cons char rest =>
    simp [flush, emit, addScope, Table.extended, behindPath, scopeTable, scopeEncodings_append,
      scopeEncodings_cons]

/-- Tokens that do not end a declaration are assembled into the components of their path, of which
the first one goes on with what was pending. -/
theorem Draft.assemble_behindPath (symbol : Text) (isConst : Bool) {path : List Token}
    (going : ∀ token ∈ path, token.isFinal = false) {finished scopes : List Text}
    {pending last : Text}
    (split : (pathComponents path).modifyHead (pending ++ ·) = scopes ++ [last])
    (tokens : List Token) :
    (behindPath symbol isConst finished pending).assemble (path ++ tokens) =
      (behindPath symbol isConst (finished ++ scopes) last).assemble tokens := by
  induction path generalizing finished pending scopes with
  | nil =>
    have single : [] ++ [pending] = scopes ++ [last] := by simpa [pathComponents] using split
    obtain ⟨rfl, same⟩ := List.append_inj' single rfl
    simp [List.singleton_inj.mp same]
  | cons token path ih =>
    obtain ⟨first, later⟩ := List.forall_mem_cons.mp going
    -- All tokens but a separator lengthen what is pending, if only by nothing.
    have longer : token ≠ .scope →
        (pathComponents path).modifyHead (pending ++ token.encoding ++ ·) = scopes ++ [last] := by
      intro other
      rw [← split, pathComponents_cons other, List.modifyHead_modifyHead]
      congr 1
      funext component
      simp
    cases token with
    | scope =>
      rw [pathComponents_scope_cons, List.modifyHead_cons, List.append_nil] at split
      obtain ⟨inner, rfl, rest⟩ : ∃ inner, scopes = pending :: inner ∧
          pathComponents path = inner ++ [last] := by
        cases scopes with
        | nil => simp [pathComponents_ne_nil] at split
        | cons outer inner => exact ⟨inner, by simp_all⟩
      have unchanged : (pathComponents path).modifyHead ([] ++ ·) = inner ++ [last] := by
        rw [rest]
        cases inner <;> rfl
      rw [List.cons_append, assemble, enterScope_behindPath, ih later unchanged]
      simp
    | name content =>
      rw [List.cons_append, assemble, append_behindPath]
      exact ih later (longer (by simp))
    | templateArgs content items =>
      rw [List.cons_append, assemble, append_behindPath]
      exact ih later (longer (by simp))
    | const =>
      rw [List.cons_append, assemble]
      exact ih later (by simpa [Token.encoding] using longer (by simp))
    | params content items => simp [Token.isFinal] at first
    | stop => simp [Token.isFinal] at first

/-- Items are written as the parameters that they describe, over a table that grows. -/
theorem Draft.writeItems_eq (draft : Draft) (items : List Text) :
    (draft.writeItems items).1 = .ok () ∧
      (draft.writeItems items).2.out =
        draft.out ++ (draft.table.encodeAll (describedParameters items)).1 ∧
      (draft.writeItems items).2.table = (draft.table.encodeAll (describedParameters items)).2 := by
  induction items generalizing draft with
  | nil => simp [writeItems, describedParameters, Table.encodeAll]
  | cons item items ih =>
    have read : Parameter.ofSpelling item = .ok (Parameter.spelled item) :=
      Parameter.ofSpelling_eq item
    by_cases empty : (Parameter.spelled item).isEmpty = true
    · have rest := ih draft.noteEmpty
      simp only [writeItems, read, empty, if_true]
      simpa [describedParameters, empty, noteEmpty] using rest
    · have rest := ih (draft.writeParameter (Parameter.spelled item))
      simp only [writeItems, read, if_neg empty]
      simpa [describedParameters, empty, writeParameter, emit, Table.encodeAll] using rest

/-- A parameter list is written behind what is there, over the table that is there. -/
theorem Draft.writeParams_eq (draft : Draft) (content : Text) (items : List Text) :
    (draft.writeParams content items).1 = .ok () ∧
      (draft.writeParams content items).2.out =
        draft.out ++ (draft.table.encodeList content items).1 ∧
      (draft.writeParams content items).2.table = (draft.table.encodeList content items).2 := by
  rw [writeParams, Table.encodeList, isEmpty_trimBlanks]
  split
  · exact ⟨rfl, rfl, rfl⟩
  · exact draft.writeItems_eq items

/-- A parameter list ends the symbol, whatever tokens follow it. -/
theorem Draft.assemble_params (draft : Draft) (content : Text) (items : List Text)
    (tokens : List Token) :
    draft.assemble (.params content items :: tokens) =
      (.ok (draft.flush.2.close.writeParams content items).2.result,
        (draft.flush.2.close.writeParams content items).2) := by
  have succeeds := (draft.flush.2.close.writeParams_eq content items).1
  rw [assemble]
  split
  next after wrote => rw [wrote]
  next fault after wrote => simp [wrote] at succeeds

/-- A path is closed with the marks around its components, and leaves the table of its scopes. -/
theorem Draft.close_behindPath (symbol : Text) (isConst : Bool) (scopes : List Text) (last : Text) :
    (behindPath symbol isConst scopes last).flush.2.close.out =
        symbolMark :: pathFragments isConst (scopes ++ [last]) ∧
      (behindPath symbol isConst scopes last).flush.2.close.table =
        scopeTable (scopes ++ [last]) := by
  cases scopes <;> simp [behindPath, flush, emit, close, pathFragments, closingMarks]

/-- Behind a path a parameter list completes the symbol, over the table of the scopes. -/
theorem Draft.assemble_behindPath_params (symbol : Text) (isConst : Bool) (scopes : List Text)
    (last content : Text) (items : List Text) (tokens : List Token) :
    ∃ start : Draft, start.out = symbolMark :: pathFragments isConst (scopes ++ [last]) ∧
      start.table = scopeTable (scopes ++ [last]) ∧
      (start.writeParams content items).2.out =
        start.out ++ ((scopeTable (scopes ++ [last])).encodeList content items).1 ∧
      (behindPath symbol isConst scopes last).assemble (.params content items :: tokens) =
        (.ok (start.writeParams content items).2.result, (start.writeParams content items).2) := by
  obtain ⟨out, table⟩ := close_behindPath symbol isConst scopes last
  refine ⟨_, out, table, ?_, assemble_params _ _ _ _⟩
  rw [← table]
  exact (writeParams_eq _ content items).2.1

/-- Behind a path the end completes the symbol of a member, and leaves any other one as it is. -/
theorem Draft.assemble_behindPath_stop (symbol : Text) (isConst : Bool) (scopes : List Text)
    (last : Text) (tokens : List Token) :
    ((behindPath symbol isConst scopes last).assemble (.stop :: tokens)).1 =
        .ok (if scopes = [] then symbol
          else (symbolMark :: pathFragments isConst (scopes ++ [last])).flatten) ∧
      ((behindPath symbol isConst scopes last).assemble (.stop :: tokens)).2.out =
        symbolMark :: pathFragments isConst (scopes ++ [last]) := by
  obtain ⟨out, _⟩ := close_behindPath symbol isConst scopes last
  cases scopes with
  | nil => exact ⟨rfl, out⟩
  | cons outer inner =>
    refine ⟨?_, out⟩
    rw [if_neg (List.cons_ne_nil outer inner), ← out]
    rfl

/-- Behind a path that a fresh draft has read, its components are written or pending. -/
theorem Draft.exists_behindPath (symbol : Text) (isConst : Bool) {path : List Token}
    (going : ∀ token ∈ path, token.isFinal = false) :
    ∃ scopes last, pathComponents path = scopes ++ [last] ∧
      ∀ tokens, Draft.assemble { symbol, isConst } (path ++ tokens) =
        (behindPath symbol isConst scopes last).assemble tokens := by
  obtain ⟨scopes, last, split⟩ : ∃ scopes last, pathComponents path = scopes ++ [last] := by
    rcases List.eq_nil_or_concat (pathComponents path) with none | ⟨scopes, last, split⟩
    · exact absurd none (pathComponents_ne_nil path)
    · exact ⟨scopes, last, by rw [split, List.concat_eq_append]⟩
  have unchanged : (pathComponents path).modifyHead ([] ++ ·) = scopes ++ [last] := by
    rw [split]
    cases scopes <;> rfl
  -- A fresh draft has finished nothing, and nothing is pending.
  exact ⟨scopes, last, split, fun tokens =>
    @assemble_behindPath symbol isConst path going [] scopes [] last unchanged tokens⟩

/-- A component is never a single letter, because it begins with a length if it is anything, or with
the mark of template arguments. -/
theorem ne_letter_of_mem_pathComponents {path : List Token} {component : Text}
    (member : component ∈ pathComponents path) {letter : Char} (undigit : letter.isDigit = false)
    (other : letter ≠ 'I') : component ≠ [letter] := by
  have headed : ∀ token : Token, ∀ char ∈ token.encoding.head?, char ≠ letter := by
    intro token char head
    cases token with
    | name content =>
      obtain ⟨digit, rest, spelled, isDigit⟩ := sourceName_eq_cons content
      rw [Token.encoding, spelled, List.head?_cons, Option.mem_some_iff] at head
      rw [← head]
      exact ne_of_isDigit isDigit undigit
    | templateArgs content items =>
      rw [Token.encoding, List.head?_cons, Option.mem_some_iff] at head
      rw [← head]
      exact other.symm
    | scope | params | const | stop => simp [Token.encoding] at head
  have grouped : ∀ group : List Token, ∀ char ∈ (group.flatMap Token.encoding).head?,
      char ≠ letter := by
    intro group
    induction group with
    | nil => simp
    | cons token group ih =>
      cases spelled : token.encoding with
      | nil => simpa [spelled] using ih
      | cons first rest => simpa [spelled] using headed token first (by simp [spelled])
  obtain ⟨group, _, rfl⟩ := List.mem_map.mp member
  intro same
  exact grouped group letter (by rw [same]; rfl) rfl

/-- What is written for parameters with a base is the code of a fundamental type, or longer than one
character. -/
theorem Table.code_of_mem_encodeAll (table : Table) {parameters : List Parameter}
    (based : ∀ parameter ∈ parameters, parameter.base ≠ []) {code : Text}
    (member : code ∈ (table.encodeAll parameters).1) :
    (∃ kind : Builtin, code = kind.code) ∨ 2 ≤ code.length := by
  induction parameters generalizing table with
  | nil => simp [encodeAll] at member
  | cons parameter parameters ih =>
    obtain ⟨first, later⟩ := List.forall_mem_cons.mp based
    simp only [encodeAll, List.mem_cons] at member
    rcases member with same | rest
    · rw [same]
      by_cases bare : parameter.IsBare
      · -- A fundamental type on its own is written in full.
        obtain ⟨kind, found⟩ := Option.isSome_iff_exists.mp bare.1
        have spelled : parameter.base.isEmpty = false := by simpa using first
        refine Or.inl ⟨kind, ?_⟩
        simp [encode, bare.1, bare.2, Parameter.encodedBase, Parameter.isScoped, plainType,
          spelled, found]
      · exact Or.inr (table.two_le_length_encode first bare)
    · exact ih _ later rest

/-- The parameters that items describe have a base. -/
theorem base_ne_nil_of_mem_describedParameters {items : List Text} {parameter : Parameter}
    (described : parameter ∈ describedParameters items) : parameter.base ≠ [] := by
  simpa [Parameter.isEmpty] using (List.mem_filter.mp described).2

/-- What a parameter list writes is the code of a fundamental type, or longer than one character. -/
theorem Table.code_of_mem_encodeList (table : Table) {content : Text} {items : List Text}
    {code : Text} (member : code ∈ (table.encodeList content items).1) :
    (∃ kind : Builtin, code = kind.code) ∨ 2 ≤ code.length := by
  rw [encodeList] at member
  split at member
  · exact Or.inl ⟨.void, List.mem_singleton.mp member⟩
  · exact table.code_of_mem_encodeAll (fun _ => base_ne_nil_of_mem_describedParameters) member

/-- What a parameter list writes is neither of the marks of a nested name. -/
theorem Table.ne_mark_of_mem_encodeList (table : Table) {content : Text} {items : List Text}
    {code : Text} (member : code ∈ (table.encodeList content items).1) :
    code ≠ ['N'] ∧ code ≠ ['E'] := by
  rcases table.code_of_mem_encodeList member with ⟨kind, rfl⟩ | long
  · -- The code of a fundamental type is a small letter.
    cases kind <;> decide
  · constructor
    · rintro rfl
      simp at long
    · rintro rfl
      simp at long

/-- Around the components of a path each mark of the nested name is written once, or neither is. -/
theorem count_pathFragments (isConst : Bool) (path : List Token) {mark : Text}
    (isMark : mark = ['N'] ∨ mark = ['E']) :
    (pathFragments isConst (pathComponents path)).count mark =
      if 1 < (pathComponents path).length then 1 else 0 := by
  have unwritten : (pathComponents path).count mark = 0 := by
    rw [List.count_eq_zero]
    intro member
    rcases isMark with rfl | rfl
    · exact ne_letter_of_mem_pathComponents member rfl (by decide) rfl
    · exact ne_letter_of_mem_pathComponents member rfl (by decide) rfl
  rw [pathFragments, List.count_append, List.count_append, unwritten, openingMarks, closingMarks]
  split
  · rcases isMark with rfl | rfl <;> cases isConst <;> decide
  · rfl

/-- How any tokens are assembled is decided by the first one that ends a declaration, if there is
one. -/
theorem Draft.assemble_cases (symbol : Text) (isConst : Bool) (tokens : List Token) :
    let components := pathComponents (tokens.takeWhile fun token => !token.isFinal)
    let assembly := Draft.assemble { symbol, isConst } tokens
    (tokens.find? Token.isFinal = none ∧ assembly.1 = .error .unfinished) ∨
      (∃ content items, ∃ start : Draft,
        tokens.find? Token.isFinal = some (.params content items) ∧
        start.out = symbolMark :: pathFragments isConst components ∧
        start.table = scopeTable components ∧
        (start.writeParams content items).2.out =
          start.out ++ ((scopeTable components).encodeList content items).1 ∧
        assembly =
          (.ok (start.writeParams content items).2.result, (start.writeParams content items).2)) ∨
      (tokens.find? Token.isFinal = some .stop ∧
        assembly.1 = .ok (if 1 < components.length then
          symbolMark ++ (pathFragments isConst components).flatten else symbol) ∧
        assembly.2.out = symbolMark :: pathFragments isConst components) := by
  intro components assembly
  have going : ∀ token ∈ tokens.takeWhile (fun token => !token.isFinal), token.isFinal = false := by
    intro token member
    simpa using List.mem_takeWhile_imp member
  obtain ⟨scopes, last, split, behind⟩ := exists_behindPath symbol isConst going
  have listed : components = scopes ++ [last] := split
  have assembled := behind (tokens.dropWhile fun token => !token.isFinal)
  rw [List.takeWhile_append_dropWhile] at assembled
  have same : assembly = _ := assembled
  have found := List.find?_eq_head?_dropWhile_not Token.isFinal tokens
  cases final : tokens.dropWhile fun token => !token.isFinal with
  | nil =>
    rw [final] at same found
    exact Or.inl ⟨found, by rw [same]; rfl⟩
  | cons token later =>
    rw [final] at same found
    have ends : token.isFinal = true := List.find?_some found
    cases token with
    | params content items =>
      obtain ⟨start, out, table, written, ended⟩ :=
        assemble_behindPath_params symbol isConst scopes last content items later
      rw [← listed] at out table written
      exact Or.inr (Or.inl ⟨content, items, start, found, out, table, written, same.trans ended⟩)
    | stop =>
      obtain ⟨outcome, out⟩ := assemble_behindPath_stop symbol isConst scopes last later
      rw [← same, ← listed] at outcome out
      refine Or.inr (Or.inr ⟨found, ?_, out⟩)
      -- The path is nested as soon as there is a scope.
      rw [outcome, listed]
      cases scopes <;> simp
    | name | scope | templateArgs | const => simp [Token.isFinal] at ends

/-- Any tokens are assembled into their symbol in closed form. -/
theorem Draft.outcome_assemble (symbol : Text) (isConst : Bool) (tokens : List Token) :
    (Draft.assemble { symbol, isConst } tokens).1 = closedSymbol symbol isConst tokens := by
  rw [closedSymbol]
  rcases assemble_cases symbol isConst tokens with
    ⟨found, outcome⟩ | ⟨content, items, start, found, out, _, written, assembled⟩ |
    ⟨found, outcome, _⟩
  · rw [found, outcome]
  · simp [found, assembled, result, written, out]
  · rw [found, outcome]

/-- A signature that is accepted is mangled into the closed form of its tokens. -/
theorem mangle_eq_closedSymbol {signature : Text} {tokens : List Token}
    (scanned : (scanSignature signature).result = .ok tokens) :
    (mangle signature).outcome =
      closedSymbol signature (tokens.any (·.kind == .const)) tokens := by
  rw [← Draft.outcome_assemble]
  unfold mangle
  simp only [scanned]
  split
  next fault failed => rw [failed]
  next symbol succeeded => rw [succeeded]

/-- Any tokens are assembled into their symbol in closed form. Where there is a parameter list, it
is written behind the closed path, over a table that has the scopes and nothing else; and the two
marks of the nested name are written once each, or neither is. -/
theorem Draft.assemble_closed (symbol : Text) (isConst : Bool) (tokens : List Token) :
    let components := pathComponents (tokens.takeWhile fun token => !token.isFinal)
    let assembly := Draft.assemble { symbol, isConst } tokens
    assembly.1 = closedSymbol symbol isConst tokens ∧
      (∀ content items, tokens.find? Token.isFinal = some (.params content items) →
        ∃ start : Draft, start.out = symbolMark :: pathFragments isConst components ∧
          start.table = scopeTable components ∧
          assembly.2 = (start.writeParams content items).2) ∧
      ((∃ token ∈ tokens, token.isFinal = true) → ∀ mark, mark = ['N'] ∨ mark = ['E'] →
        assembly.2.out.count mark = if 1 < components.length then 1 else 0) := by
  intro components assembly
  refine ⟨outcome_assemble symbol isConst tokens, ?_⟩
  -- Neither mark is the mark in front of the symbol.
  have counted : ∀ mark, mark = ['N'] ∨ mark = ['E'] →
      (symbolMark :: pathFragments isConst components).count mark =
        if 1 < components.length then 1 else 0 := by
    intro mark isMark
    rw [List.count_cons_of_ne, count_pathFragments isConst _ isMark]
    rcases isMark with rfl | rfl <;> decide
  rcases assemble_cases symbol isConst tokens with
    ⟨found, _⟩ | ⟨content, items, start, found, out, table, written, assembled⟩ | ⟨found, _, out⟩
  · refine ⟨by simp [found], ?_⟩
    rintro ⟨token, member, ends⟩
    exact absurd ends (List.find?_eq_none.mp found token member)
  · have left : assembly.2 = (start.writeParams content items).2 := congrArg Prod.snd assembled
    refine ⟨?_, ?_⟩
    · intro other others here
      simp only [found, Option.some.injEq, Token.params.injEq] at here
      obtain ⟨rfl, rfl⟩ := here
      exact ⟨start, out, table, left⟩
    · intro _ mark isMark
      have unwritten : ((scopeTable components).encodeList content items).1.count mark = 0 := by
        rw [List.count_eq_zero]
        intro member
        have others := Table.ne_mark_of_mem_encodeList _ member
        exact isMark.elim others.1 others.2
      rw [left, written, out, List.count_append, counted mark isMark, unwritten, Nat.add_zero]
  · refine ⟨by simp [found], ?_⟩
    intro _ mark isMark
    rw [out, counted mark isMark]

/-- Separators without a name in front open the nested name once and leave no scope, and of the two
scopes the inner one is remembered with the outer one around it. -/
theorem Draft.assemble_closed_doubled :
    let tokens : List Token := [.scope, .name "A".toList, .const, .scope, .scope,
      .name "B".toList, .scope, .name "f".toList, .params "A::B".toList ["A::B".toList], .stop]
    let assembly := Draft.assemble { symbol := "f".toList, isConst := true } tokens
    assembly.1 = .ok "_ZNK1A1B1fES0_".toList ∧
      (∃ start : Draft, start.table = { entries := ["1A".toList, "N1A1BE".toList] } ∧
        assembly.2 = (start.writeParams "A::B".toList ["A::B".toList]).2) ∧
      assembly.2.out.count ['N'] = 1 ∧ assembly.2.out.count ['E'] = 1 := by
  intro tokens assembly
  obtain ⟨outcome, listed, marked⟩ := assemble_closed "f".toList true tokens
  obtain ⟨start, _, table, written⟩ := listed "A::B".toList ["A::B".toList] (by decide)
  have once := marked ⟨.stop, by decide, rfl⟩
  refine ⟨outcome.trans (by with_unfolding_all rfl), ⟨start, ?_, written⟩, ?_, ?_⟩
  · rw [table]
    with_unfolding_all rfl
  · exact (once ['N'] (Or.inl rfl)).trans (by with_unfolding_all rfl)
  · exact (once ['E'] (Or.inr rfl)).trans (by with_unfolding_all rfl)

end Mangling
