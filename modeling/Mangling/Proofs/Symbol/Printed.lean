import Mangling.Proofs.Symbol.Prototype
import Mangling.Proofs.Symbol.TreeReader
import Mangling.Symbol.Demangle

/-! The printed form of declarations, and of the trees of their types. -/

namespace Mangling

/-- Qualifiers are printed behind what they qualify, the outermost last. -/
def printedQualifiers : Text → Text
  | [] => []
  | code :: codes =>
    -- Each one is printed behind those that it stands in front of.
    printedQualifiers codes ++ if code = 'P' then "*".toList else " const".toList

/-- The printed form of a parameter: its base, with the canonical spelling of a fundamental type, and
its qualifiers. -/
def Parameter.printed (parameter : Parameter) : Text :=
  (match Builtin.ofSpelling? parameter.base with
    | some kind => kind.spelling
    | none => parameter.base) ++ printedQualifiers parameter.qualifiers

/-- Whether a parameter has the type without values. -/
def Parameter.isVoid (parameter : Parameter) : Bool :=
  parameter.base == Builtin.void.spelling && parameter.qualifiers.isEmpty

/-- The printed form of a parameter list; a lone parameter without values is printed as none. -/
def printedParameters (parameters : List Parameter) : Text :=
  if parameters.length ≤ 1 ∧ parameters.all Parameter.isVoid then "()".toList
  else '(' :: ((", ".toList).intercalate (parameters.map Parameter.printed) ++ [')'])

/-- The printed form of a declaration. -/
def Prototype.printed (prototype : Prototype) : Text :=
  joinNames prototype.path ++
    match prototype.parameters with
    | none => []
    | some parameters => printedParameters parameters ++ memberSuffix prototype.isConst

/-- The tree of a path is printed as the path. -/
theorem TypeTree.spelling_ofPath {names : List Text} (nonempty : names ≠ []) :
    (TypeTree.ofPath names).spelling = joinNames names := by
  -- Each name goes behind a separator, in the tree and in the path.
  have members : ∀ (names : List Text) (tree : TypeTree),
      (names.foldl .member tree).spelling =
        tree.spelling ++ names.flatMap (fun name => scopeMark ++ name) := by
    intro names
    induction names with
    | nil => simp
    | cons name names ih =>
      intro tree
      simp [ih, spelling, scopeMark]
  have joined : ∀ (name : Text) (names : List Text),
      joinNames (name :: names) = name ++ names.flatMap (fun name => scopeMark ++ name) := by
    intro name names
    induction names generalizing name with
    | nil => simp [joinNames]
    | cons other others ih =>
      have behind := ih other
      rw [joinNames] at behind ⊢
      rw [List.intercalate_cons_cons, behind]
      simp
  cases names with
  | nil => exact absurd rfl nonempty
  | cons name others => rw [ofPath, members, joined, spelling]

/-- The tree of a readable base is printed as what it names. -/
theorem BaseType.spelling_tree {base : BaseType} (readable : base.IsReadable) :
    base.tree.spelling = base.spelling := by
  cases base with
  | builtin kind => rfl
  | source name => rfl
  | nested names =>
    have long := readable.1
    apply TypeTree.spelling_ofPath
    exact List.ne_nil_of_length_pos (by omega)

/-- Qualifiers around a tree are printed behind it. -/
theorem TypeTree.spelling_wrap (qualifiers : Text) (tree : TypeTree) :
    (TypeTree.wrap qualifiers tree).spelling = tree.spelling ++ printedQualifiers qualifiers := by
  induction qualifiers with
  | nil => simp [wrap, printedQualifiers]
  | cons code codes ih =>
    rw [wrap, printedQualifiers]
    by_cases pointer : code = 'P'
    · simp [pointer, spelling, ih]
    · simp [pointer, spelling, ih]

/-- The tree of a plain parameter is printed as the parameter. -/
theorem Parameter.IsPlain.spelling_treeOf {parameter : Parameter} (plain : parameter.IsPlain) :
    (treeOf parameter.type).spelling = parameter.printed := by
  rw [treeOf, TypeTree.spelling_wrap, type, BaseType.spelling_tree plain.readable.baseType,
    plain.baseType.2]
  rfl

/-- The tree of a path is no fundamental type. -/
theorem TypeTree.ofPath_ne_builtin (names : List Text) (kind : Builtin) :
    TypeTree.ofPath names ≠ .builtin kind := by
  have members : ∀ (names : List Text) (tree : TypeTree), tree ≠ .builtin kind →
      names.foldl .member tree ≠ .builtin kind := by
    intro names
    induction names with
    | nil => exact fun _ other => other
    | cons name names ih => exact fun tree _ => ih (.member tree name) (by simp)
  cases names with
  | nil => simp [ofPath]
  | cons name names => exact members names (.source name) (by simp)

/-- The tree of a parameter is the type without values exactly for a parameter of that type. -/
theorem Parameter.treeOf_eq_void_iff (parameter : Parameter) :
    treeOf parameter.type = .builtin .void ↔ parameter.isVoid = true := by
  rw [isVoid, treeOf, type]
  simp only [Bool.and_eq_true, beq_iff_eq, List.isEmpty_iff]
  constructor
  · intro tree
    cases qualifiers : parameter.qualifiers with
    | nil =>
      simp only [qualifiers, TypeTree.wrap, baseType] at tree
      refine ⟨?_, rfl⟩
      cases found : Builtin.ofSpelling? parameter.base with
      | none =>
        simp only [found] at tree
        split at tree
        · exact absurd tree (TypeTree.ofPath_ne_builtin _ _)
        · simp [BaseType.tree] at tree
      | some kind =>
        simp only [found, BaseType.tree, TypeTree.builtin.injEq] at tree
        rcases Builtin.spelling_of_ofSpelling found with same | ⟨_, other⟩
        · rw [same, tree]
        · simp [tree] at other
    | cons code codes =>
      -- A qualifier in front makes a pointer or a constant type.
      rw [qualifiers, TypeTree.wrap] at tree
      split at tree <;> simp at tree
  · rintro ⟨base, qualifiers⟩
    have found : Builtin.ofSpelling? parameter.base = some .void := by
      rw [base]
      exact Builtin.ofSpelling_spelling _
    simp [qualifiers, TypeTree.wrap, baseType, found, BaseType.tree]

end Mangling
