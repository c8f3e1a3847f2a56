import Mangling.Proofs.Symbol.Assembly

/-! The layout of a declaration signature, and the symbol that its tokens are assembled into. -/

namespace Mangling

/-- A name on the path of a declaration, with the content of its template brackets if it has them. -/
structure Component where
  name : Text
  arguments : Option Text := none
  deriving DecidableEq

/-- The tokens of a component. -/
def Component.tokens (component : Component) : List Token :=
  .name component.name ::
    -- Brackets hold the pieces between their commas.
    match component.arguments with
    | none => []
    | some content => [.templateArgs content (commaPieces content)]

/-- The encoding of a component. -/
def Component.encoding (component : Component) : Text :=
  sourceName component.name ++
    match component.arguments with
    | none => []
    | some content => templateArgs (commaPieces content)

/-- How a signature ends behind its path. -/
inductive Ending where
  /-- With the content of a parameter list, and perhaps the member word. -/
  | called (content : Text) (isConst : Bool)
  /-- With nothing more. -/
  | plain
  deriving DecidableEq

/-- The tokens of an ending. -/
def Ending.tokens : Ending → List Token
  | .called content true => [.params content (commaPieces content), .const, .stop]
  | .called content false => [.params content (commaPieces content), .stop]
  | .plain => [.stop]

/-- Whether an ending has the member word. -/
def Ending.isConst : Ending → Bool
  | .called _ isConst => isConst
  | .plain => false

/-- The parameters that the content of a parameter list writes into a symbol: those with a base, or a
lone `void` for a blank content. -/
def writtenParameters (content : Text) : List Parameter :=
  if (trimBlanks content).isEmpty then [Parameter.spelled Builtin.void.spelling]
  else
    -- An item without a base leaves nothing behind.
    ((commaPieces content).map Parameter.spelled).filter fun parameter => !parameter.isEmpty

/-- The parameters that an ending writes into a symbol. -/
def Ending.parameters : Ending → List Parameter
  | .called content _ => writtenParameters content
  | .plain => []

/-- A signature as its scopes, the name inside them, and its ending. -/
structure Layout where
  scopes : List Component := []
  last : Component
  ending : Ending
  deriving DecidableEq

/-- The tokens of a signature. -/
def Layout.tokens (layout : Layout) : List Token :=
  layout.scopes.flatMap (fun scope => scope.tokens ++ [.scope]) ++
    (layout.last.tokens ++ layout.ending.tokens)

/-- Scopes that are source names are encoded as the path that they make. -/
theorem scopeEncoding_sourceNames (path : List Text) :
    scopeEncoding (path.map sourceName) = scopePath path := by
  match path with
  | [] | [name] => rfl
  | outer :: inner :: others =>
    simp [scopeEncoding, scopePath_cons_cons, nestedName, List.flatMap_def]

/-- The scopes of a path are remembered as the paths to them. -/
theorem scopeEncodings_sourceNames (around names : List Text) :
    scopeEncodings (around.map sourceName) (names.map sourceName) =
      pathsBehind around.length (around ++ names) := by
  induction names generalizing around with
  | nil => simp [pathsBehind]
  | cons name names ih =>
    have grown := ih (around ++ [name])
    -- A scope is encoded as the path that ends with it.
    have whole := scopeEncoding_sourceNames (around ++ [name])
    rw [List.map_append, List.map_singleton] at grown whole
    rw [List.map_cons, scopeEncodings_cons, whole, grown, pathsBehind_eq, pathsBehind_eq,
      prefixesBehind_append_cons, List.map_cons]

/-- The table with which the parameters of a signature start: its scopes are in it. -/
def Layout.table (layout : Layout) : Table :=
  { entries := scopeEncodings [] (layout.scopes.map Component.encoding) }

/-- The path of a signature as it is written: a nested name as soon as there is a scope. -/
def Layout.path (layout : Layout) : Text :=
  if layout.scopes.isEmpty then layout.last.encoding
  else
    -- The mark of a constant member stands in front of the path.
    'N' :: ((if layout.ending.isConst then ['K'] else []) ++
      layout.scopes.flatMap Component.encoding ++ layout.last.encoding ++ ['E'])

/-- The symbol of a signature: its path, and its parameters over the table of its scopes. -/
def Layout.symbol (layout : Layout) : Text :=
  symbolMark ++ (layout.path ++ (layout.table.encodeAll layout.ending.parameters).1.flatten)

/-- A component is never encoded as nothing. -/
theorem Component.encoding_ne_nil (component : Component) : component.encoding ≠ [] := by
  -- Its length stands in front.
  obtain ⟨digit, rest, spelled, _⟩ := sourceName_eq_cons component.name
  simp [encoding, spelled]

/-- The tokens of a component lengthen what is pending by its encoding. -/
theorem Draft.assemble_component (draft : Draft) (component : Component) (tokens : List Token) :
    draft.assemble (component.tokens ++ tokens) =
      (draft.append component.encoding).assemble tokens := by
  cases arguments : component.arguments with
  | none => simp [Component.tokens, Component.encoding, arguments, assemble]
  | some content =>
    -- The brackets come behind the name.
    simp [Component.tokens, Component.encoding, arguments, assemble, append]

/-- The tokens of a component are one group of a path, and are encoded as the component. -/
theorem Component.flatMap_tokens (component : Component) :
    .scope ∉ component.tokens ∧ (∀ token ∈ component.tokens, token.isFinal = false) ∧
      component.tokens.flatMap Token.encoding = component.encoding := by
  cases arguments : component.arguments <;>
    simp [tokens, encoding, arguments, Token.isFinal, Token.encoding, templateArgs]

/-- The tokens of a signature in front of its ending. -/
def Layout.pathTokens (layout : Layout) : List Token :=
  layout.scopes.flatMap (fun scope => scope.tokens ++ [.scope]) ++ layout.last.tokens

/-- No token of the path ends the signature. -/
theorem Layout.isFinal_pathTokens (layout : Layout) :
    ∀ token ∈ layout.pathTokens, token.isFinal = false := by
  intro token member
  simp only [pathTokens, List.mem_append, List.mem_flatMap, List.mem_singleton] at member
  rcases member with ⟨scope, _, inside | rfl⟩ | inside
  · exact scope.flatMap_tokens.2.1 token inside
  · rfl
  · exact layout.last.flatMap_tokens.2.1 token inside

/-- The components of the path are those of the layout. -/
theorem Layout.pathComponents_pathTokens (layout : Layout) :
    pathComponents layout.pathTokens =
      layout.scopes.map Component.encoding ++ [layout.last.encoding] := by
  rw [pathTokens]
  induction layout.scopes with
  | nil =>
    obtain ⟨joined, _, encoded⟩ := layout.last.flatMap_tokens
    simp [pathComponents_of_not_mem joined, encoded]
  | cons scope scopes ih =>
    obtain ⟨joined, _, encoded⟩ := scope.flatMap_tokens
    rw [List.flatMap_cons, List.append_assoc, List.append_assoc, List.singleton_append,
      pathComponents_append_scope, pathComponents_of_not_mem joined, ih, encoded]
    simp

/-- The path is written as its components with the marks around them. -/
theorem Layout.flatten_pathFragments (layout : Layout) :
    (pathFragments layout.ending.isConst (pathComponents layout.pathTokens)).flatten =
      layout.path := by
  rw [pathComponents_pathTokens, path]
  cases layout.scopes with
  | nil => simp [pathFragments, openingMarks, closingMarks]
  | cons scope scopes =>
    -- The mark of a constant member comes directly behind that of the nested name.
    cases layout.ending.isConst <;>
      simp [pathFragments, openingMarks, closingMarks, List.flatMap_def]

/-- The scopes of the layout are those that the parameters find, because none of them is empty. -/
theorem Layout.scopeTable_pathTokens (layout : Layout) :
    scopeTable (pathComponents layout.pathTokens) = layout.table := by
  have spelled : ∀ component ∈ layout.scopes.map Component.encoding,
      (!component.isEmpty) = true := by
    intro component member
    obtain ⟨scope, _, rfl⟩ := List.mem_map.mp member
    simpa using scope.encoding_ne_nil
  rw [pathComponents_pathTokens, scopeTable, table, List.dropLast_concat,
    List.filter_eq_self.mpr spelled]

/-- The content of a parameter list writes its parameters. -/
theorem Table.encodeList_commaPieces (table : Table) (content : Text) :
    (table.encodeList content (commaPieces content)).1 =
      (table.encodeAll (writtenParameters content)).1 := by
  rw [encodeList, writtenParameters, isEmpty_trimBlanks]
  split
  · -- The type without values is written as it is, whatever the table holds.
    rfl
  · rfl

/-- The tokens of a signature have the member word exactly when its ending has it. -/
theorem Layout.any_const_tokens (layout : Layout) :
    (layout.tokens.any (·.kind == .const)) = layout.ending.isConst := by
  have component : ∀ component : Component,
      (component.tokens.any (·.kind == .const)) = false := by
    intro component
    cases arguments : component.arguments <;> simp [Component.tokens, arguments, Token.kind]
  have ending : (layout.ending.tokens.any (·.kind == .const)) = layout.ending.isConst := by
    match layout.ending with
    | .called content true => rfl
    | .called content false => rfl
    | .plain => rfl
  have scope : (Token.scope.kind == .const) = false := rfl
  simp [tokens, component, ending, scope]

/-- A signature whose tokens are a layout is mangled into the symbol of the layout, unless it is a
name without either scope or parameters. -/
theorem mangle_of_layout {signature : Text} {layout : Layout}
    (scanned : (scanSignature signature).result = .ok layout.tokens)
    (shaped : layout.ending = .plain → layout.scopes ≠ []) :
    (mangle signature).outcome = .ok layout.symbol := by
  have path := layout.flatten_pathFragments
  have table := layout.scopeTable_pathTokens
  have split : layout.tokens = layout.pathTokens ++ layout.ending.tokens := by
    rw [Layout.tokens, Layout.pathTokens, List.append_assoc]
  rw [mangle_eq_closedSymbol scanned, layout.any_const_tokens, split]
  cases ending : layout.ending with
  | called content isConst =>
    -- What follows the parameter list has no part in the symbol.
    obtain ⟨later, listed⟩ : ∃ later, (Ending.called content isConst).tokens =
        .params content (commaPieces content) :: later := by
      cases isConst <;> exact ⟨_, rfl⟩
    rw [ending] at path
    rw [listed, closedSymbol_params _ _ layout.isFinal_pathTokens, path, table,
      Table.encodeList_commaPieces, Layout.symbol, ending, Ending.parameters, List.append_assoc]
  | plain =>
    rw [ending] at path
    have several : 1 < (pathComponents layout.pathTokens).length := by
      have positive := List.length_pos_iff.mpr (shaped ending)
      rw [layout.pathComponents_pathTokens, List.length_append, List.length_map]
      simpa using positive
    rw [Ending.tokens, closedSymbol_stop _ _ layout.isFinal_pathTokens, if_pos several, path,
      Layout.symbol, ending]
    simp [Ending.parameters, Table.encodeAll]

end Mangling
