import Mangling.Proofs.Encoding.PlainParameter
import Mangling.Proofs.Signature.Rendered
import Mangling.Proofs.Symbol.Layout

/-! Declarations without templates, their signatures, and the layouts that these are scanned into. -/

namespace Mangling

/-- A declaration without templates: its scopes, its name, and its parameters, if it has a list of
them. -/
structure Prototype where
  scopes : List Text := []
  name : Text
  parameters : Option (List Parameter)
  isConst : Bool := false
  deriving DecidableEq

/-- The names on the path of a declaration. -/
def Prototype.path (prototype : Prototype) : List Text :=
  prototype.scopes ++ [prototype.name]

/-- The member word behind a parameter list, if it has to be there. -/
def memberSuffix (isConst : Bool) : Text :=
  if isConst then " const".toList else []

/-- A head with a parameter list behind it. -/
def listSignature (head : Text) (spellings : List Text) : Text :=
  head ++ '(' :: ([','].intercalate spellings ++ [')'])

/-- The content of a parameter list: the spellings of its parameters, with commas between them. -/
def parameterContent (parameters : List Parameter) : Text :=
  [','].intercalate (parameters.map Parameter.spelling)

/-- The signature of a declaration. -/
def Prototype.signature (prototype : Prototype) : Text :=
  joinNames prototype.path ++
    match prototype.parameters with
    -- The name of a variable stands alone.
    | none => []
    | some parameters =>
      '(' :: (parameterContent parameters ++ ')' :: memberSuffix prototype.isConst)

/-- A declaration of identifiers and plain parameters, whose constness is that of a member function,
and which has a scope if it has no parameter list. -/
structure Prototype.IsPlain (prototype : Prototype) : Prop where
  named : ∀ name ∈ prototype.path, IsIdentifier name
  typed : ∀ parameters ∈ prototype.parameters, ∀ parameter ∈ parameters, parameter.IsPlain
  nested : prototype.parameters = none → prototype.scopes ≠ []
  member : prototype.isConst = true → prototype.scopes ≠ [] ∧ prototype.parameters.isSome = true

/-- Whether a declaration is plain can be decided. -/
instance (prototype : Prototype) : Decidable prototype.IsPlain :=
  decidable_of_iff
    ((∀ name ∈ prototype.path, IsIdentifier name) ∧
      (∀ parameters ∈ prototype.parameters, ∀ parameter ∈ parameters, parameter.IsPlain) ∧
      (prototype.parameters = none → prototype.scopes ≠ []) ∧
      (prototype.isConst = true → prototype.scopes ≠ [] ∧ prototype.parameters.isSome = true))
    ⟨fun ⟨named, typed, nested, member⟩ => { named, typed, nested, member },
      fun plain => ⟨plain.named, plain.typed, plain.nested, plain.member⟩⟩

/-- The layout of a declaration. -/
def Prototype.layout (prototype : Prototype) : Layout :=
  { scopes := prototype.scopes.map fun name => { name }
    last := { name := prototype.name }
    ending := match prototype.parameters with
      | none => .plain
      | some parameters => .called (parameterContent parameters) prototype.isConst }

/-- The tail of the signature of a declaration. -/
def Prototype.tail (prototype : Prototype) : Tail :=
  match prototype.parameters with
  | none => .nothing
  | some parameters =>
    -- The member word stands behind one space.
    if prototype.isConst then .member (parameterContent parameters) [' '] []
    else .params (parameterContent parameters) []

/-- The signature of a declaration as it is divided. -/
def Prototype.divided (prototype : Prototype) : Signature :=
  prototype.scopes.foldr Signature.nested (.ended prototype.name prototype.tail)

/-- An identifier is one word. -/
theorem IsIdentifier.isNameContent {text : Text} (identifier : IsIdentifier text) :
    IsNameContent text := by
  have joins : ∀ char ∈ text, isIdentifierChar char = true := by
    intro char member
    rcases identifier.plain char member with letter | same
    · simp [isIdentifierChar, isAlphanumeric_of_isAlphanum letter]
    · rw [same]
      decide
  exact ⟨[text], by simp, by simpa using ⟨identifier.named.1, joins⟩, by simp⟩

/-- Scopes are written in front of what they enclose, each with a separator behind it. -/
theorem Signature.text_foldr_nested (scopes : List Text) (rest : Signature) :
    (scopes.foldr nested rest).text =
      scopes.flatMap (fun scope => scope ++ scopeMark) ++ rest.text := by
  induction scopes with
  | nil => rfl
  | cons scope scopes ih => simp [ih, scopeMark]

/-- The tokens of scopes come in front of those that they enclose. -/
theorem Signature.tokens_foldr_nested {scopes : List Text}
    (named : ∀ scope ∈ scopes, IsNameContent scope) (rest : Signature) :
    (scopes.foldr nested rest).tokens =
      scopes.flatMap (fun scope => [.name scope, .scope]) ++ rest.tokens := by
  induction scopes with
  | nil => rfl
  | cons scope scopes ih =>
    obtain ⟨first, later⟩ := List.forall_mem_cons.mp named
    simp [ih later, first.runTokens]

/-- What scopes enclose is inside a scope. -/
theorem Signature.isWellFormed_foldr_nested {scopes : List Text}
    (named : ∀ scope ∈ scopes, IsNameContent scope) {rest : Signature} {inScope : Bool}
    (formed : rest.IsWellFormed (inScope || !scopes.isEmpty)) :
    (scopes.foldr nested rest).IsWellFormed inScope := by
  induction scopes generalizing inScope with
  | nil => simpa using formed
  | cons scope scopes ih =>
    obtain ⟨first, later⟩ := List.forall_mem_cons.mp named
    exact isWellFormed_nested.mpr ⟨first.run.1, ih later (by simpa using formed)⟩

/-- A declaration is divided as its signature is written. -/
theorem Prototype.text_divided (prototype : Prototype) :
    prototype.divided.text = prototype.signature := by
  rw [divided, signature, path, joinNames_concat, Signature.text_foldr_nested,
    Signature.text_ended, tail, List.append_assoc]
  cases prototype.parameters with
  | none => rfl
  | some parameters => cases prototype.isConst <;> rfl

/-- The signature of a plain declaration is well formed. -/
theorem Prototype.IsPlain.isWellFormed_divided {prototype : Prototype} (plain : prototype.IsPlain) :
    prototype.divided.IsWellFormed false := by
  obtain ⟨scopes, last⟩ := List.forall_mem_append.mp plain.named
  have identifier : IsIdentifier prototype.name := last _ (by simp)
  refine Signature.isWellFormed_foldr_nested (fun scope member => (scopes scope member).isNameContent)
    (Signature.isWellFormed_ended.mpr ⟨identifier.isNameContent.run.1, ?_⟩)
  rw [tail]
  cases prototype.parameters with
  | none => trivial
  | some parameters =>
    cases isConst : prototype.isConst with
    | false => exact fun char member => absurd member (by simp)
    | true =>
      -- The member word is read only behind a scope, which a constant member has.
      exact ⟨by simpa using (plain.member isConst).1, by simp [AreBlanks, isSpaceOrTab],
        by simp [AreBlanks]⟩

/-- The tokens of a plain declaration are those of its layout. -/
theorem Prototype.IsPlain.tokens_divided {prototype : Prototype} (plain : prototype.IsPlain) :
    prototype.divided.tokens = prototype.layout.tokens := by
  obtain ⟨scopes, last⟩ := List.forall_mem_append.mp plain.named
  have identifier : IsIdentifier prototype.name := last _ (by simp)
  have ending : prototype.tail.tokens = prototype.layout.ending.tokens := by
    rw [tail, layout]
    cases prototype.parameters with
    | none => rfl
    | some parameters => cases prototype.isConst <;> rfl
  rw [divided, Signature.tokens_foldr_nested fun scope member => (scopes scope member).isNameContent,
    Signature.tokens_ended, identifier.isNameContent.runTokens, ending]
  simp [Layout.tokens, layout, Component.tokens, List.flatMap_map]

/-- The signature of a plain declaration is scanned into its layout. -/
theorem Prototype.IsPlain.scanned {prototype : Prototype} (plain : prototype.IsPlain) :
    (scanSignature prototype.signature).result = .ok prototype.layout.tokens := by
  rw [← prototype.text_divided, ← plain.tokens_divided]
  exact plain.isWellFormed_divided.scanned

/-- Items without commas are split again where they were joined. -/
theorem commaPieces_intercalate {items : List Text} (nonempty : items ≠ [])
    (free : ∀ item ∈ items, ',' ∉ item) : commaPieces ([','].intercalate items) = items :=
  List.splitOn_intercalate ',' free nonempty

/-- The pieces of the content of a parameter list are the spellings of its parameters. -/
theorem commaPieces_parameterContent {parameters : List Parameter} (nonempty : parameters ≠ [])
    (free : ∀ parameter ∈ parameters, ',' ∉ parameter.spelling) :
    commaPieces (parameterContent parameters) = parameters.map Parameter.spelling := by
  apply commaPieces_intercalate
  · simpa using nonempty
  · intro spelling member
    obtain ⟨parameter, inside, rfl⟩ := List.mem_map.mp member
    exact free parameter inside

/-- The parameters that a plain declaration writes are those of its list; an empty list writes the
type without values. -/
theorem Prototype.IsPlain.writtenParameters {prototype : Prototype} (plain : prototype.IsPlain)
    {parameters : List Parameter} (listed : prototype.parameters = some parameters) :
    writtenParameters (parameterContent parameters) =
      if parameters = [] then [Parameter.spelled Builtin.void.spelling] else parameters := by
  have each : ∀ parameter ∈ parameters, parameter.IsPlain := plain.typed parameters listed
  by_cases empty : parameters = []
  · rw [if_pos empty, empty]
    rfl
  · rw [if_neg empty]
    -- Some character of the content is visible.
    have visible : ¬(trimBlanks (parameterContent parameters)).isEmpty = true := by
      obtain ⟨parameter, member⟩ := List.exists_mem_of_ne_nil parameters empty
      obtain ⟨char, inside, seen⟩ := (each parameter member).exists_visible
      have found : char ∈ parameterContent parameters :=
        mem_intercalate (List.mem_map_of_mem member) inside
      simpa [trimBlanks] using List.ne_nil_of_mem (mem_trim seen found)
    have free : ∀ parameter ∈ parameters, ',' ∉ parameter.spelling :=
      fun parameter member => (each parameter member).comma_not_mem
    have same : (parameters.map Parameter.spelling).map Parameter.spelled = parameters := by
      rw [List.map_map]
      exact (List.map_congr_left fun parameter member => (each parameter member).spelled).trans
        (List.map_id _)
    rw [Mangling.writtenParameters, if_neg visible, commaPieces_parameterContent empty free, same,
      List.filter_eq_self]
    intro parameter member
    simpa [Parameter.isEmpty] using (each parameter member).readable.based

end Mangling
