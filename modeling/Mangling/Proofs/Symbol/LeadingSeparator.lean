import Mangling.Proofs.Encoding.PointerType
import Mangling.Proofs.Symbol.Accepted
import Mangling.Proofs.Symbol.Determined
import Mangling.Proofs.Symbol.OwnScopes

/-! A separator in front of the type of a parameter makes no difference if the type is a path of several
names; in front of a single name it is kept as a part of this name. -/

namespace Mangling

/-- The path of a type: words in which the word of constness does not occur, and which do not spell a
fundamental type. -/
structure TypePath where
  names : List Text
  nonempty : names ≠ []
  worded : ∀ name ∈ names, IsWord name
  plain : ∀ name ∈ names, ¬constWord <:+: name
  other : Builtin.ofSpelling? (joinNames names) = none

/-- A path as it is spelled. -/
def TypePath.text (path : TypePath) : Text :=
  joinNames path.names

/-- A path as it is spelled from the outermost scope on. -/
def TypePath.rooted (path : TypePath) : Text :=
  scopeMark ++ path.text

/-- A base with pointers around it. -/
def pointerSpelling (base : Text) (depth : Nat) : Text :=
  base ++ List.replicate depth '*'

/-- A signature that is accepted, with one parameter of its list left open. The head ends where the list
begins, so it opens nothing that an item could go on with. -/
structure ListContext where
  head : Text
  front : List Text
  back : List Text
  trailing : Text
  tokens : List Token
  accepted : (scanSignature (listSignature head [] ++ trailing)).result = .ok tokens
  listed : .params [] (commaPieces []) ∈ tokens
  closed : ')' ∉ trailing
  separate : ∀ spelling ∈ front ++ back, ',' ∉ spelling

/-- The signature with a parameter in the open place. -/
def ListContext.signature (context : ListContext) (spelling : Text) : Text :=
  listSignature context.head (context.front ++ spelling :: context.back) ++ context.trailing

/-- A text of words and separators, without the word of constness. -/
structure IsPathText (base : Text) : Prop where
  named : base ≠ []
  joins : ∀ char ∈ base, char = ':' ∨ isIdentifierChar char = true
  plain : ¬constWord <:+: base

/-- The word of constness does not occur across a separator. -/
theorem not_occurs_joinNames {names : List Text} (plain : ∀ name ∈ names, ¬constWord <:+: name) :
    ¬constWord <:+: joinNames names := by
  induction names with
  | nil => decide
  | cons name names ih =>
    obtain ⟨first, later⟩ := List.forall_mem_cons.mp plain
    cases names with
    | nil => simpa [joinNames] using first
    | cons next names =>
      have joined : joinNames (name :: next :: names) =
          name ++ ':' :: ([] ++ ':' :: joinNames (next :: names)) := by
        simp [joinNames, List.intercalate_cons_cons, scopeMark]
      rw [joined]
      exact not_occurs_append_cons (by decide) (by decide) first
        (not_occurs_append_cons (by decide) (by decide) (by decide) (ih later))

/-- A path is spelled with words and separators. -/
theorem TypePath.isPathText_text (path : TypePath) : IsPathText path.text := by
  refine { named := ?_, joins := ?_, plain := not_occurs_joinNames path.plain }
  · obtain ⟨name, member⟩ := List.exists_mem_of_ne_nil _ path.nonempty
    obtain ⟨char, inside⟩ := List.exists_mem_of_ne_nil name (path.worded name member).1
    exact List.ne_nil_of_mem (mem_intercalate member inside)
  · intro char member
    refine (mem_joinNames member).imp_right ?_
    rintro ⟨name, inside, within⟩
    exact (path.worded name inside).2 char within

/-- And so is a path from the outermost scope on. -/
theorem TypePath.isPathText_rooted (path : TypePath) : IsPathText path.rooted := by
  have inner := path.isPathText_text
  refine { named := by simp [rooted, scopeMark], joins := ?_, plain := ?_ }
  · intro char member
    rcases List.mem_append.mp member with mark | behind
    · exact Or.inl (by simpa [scopeMark] using mark)
    · exact inner.joins char behind
  · have marked : path.rooted = [] ++ ':' :: ([] ++ ':' :: path.text) := rfl
    rw [marked]
    exact not_occurs_append_cons (by decide) (by decide) (by decide)
      (not_occurs_append_cons (by decide) (by decide) (by decide) inner.plain)

namespace IsPathText

variable {base : Text} (isPath : IsPathText base)

include isPath

/-- A character that is neither a colon nor one of identifiers is not there. -/
theorem not_mem {char : Char} (uncolon : char ≠ ':') (apart : isIdentifierChar char = false) :
    char ∉ base := by
  intro member
  rcases isPath.joins char member with colon | joins
  · exact uncolon colon
  · rw [apart] at joins
    exact absurd joins (by decide)

/-- Without stars and spaces there is nothing to tidy up. -/
theorem isTidy : IsTidy base := by
  have unspaced : ' ' ∉ base := isPath.not_mem (by decide) (by decide)
  exact
    { unstarred := isPath.not_mem (by decide) (by decide)
      single := fun adjacent => unspaced (adjacent.subset (by simp))
      leading := fun space => unspaced (List.mem_of_mem_head? space)
      trailing := fun space => unspaced (List.mem_of_getLast? space) }

/-- With pointers around it, it is read as it is, and there is a code for every pointer. -/
theorem spelled_pointerSpelling (depth : Nat) :
    Parameter.spelled (pointerSpelling base depth) =
      { spelling := pointerSpelling base depth, base, qualifiers := List.replicate depth 'P' } := by
  let type : PointerType :=
    { base, named := isPath.named, tidy := isPath.isTidy, place := .nowhere
      pointers := List.replicate depth false }
  have spelling : type.spelling = pointerSpelling base depth := by
    simp [type, PointerType.spelling, ConstPlace.spelling, pointerTail, pointerSpelling,
      List.flatMap_replicate]
  have qualifiers : type.qualifiers = List.replicate depth 'P' := by
    simp [type, PointerType.qualifiers, PointerType.codes, ConstPlace.codes, pointerCodes,
      List.flatMap_replicate]
  have based : baseOf (pointerSpelling base depth) = base := by
    rw [← spelling]
    exact type.baseOf_spelling_eq_iff.mpr isPath.plain
  have coded := type.dropWhile_readQualifiers isPath.plain
  -- No code of constness could be hidden.
  have whole : (List.replicate depth 'P').filter (· != 'K') = List.replicate depth 'P' := by
    simp
  rw [spelling, qualifiers, whole, ite_self] at coded
  rw [Parameter.spelled, based, coded]

/-- With pointers around it, it names the names between its separators, if there are several of them, and
itself otherwise. -/
theorem type_pointerSpelling (other : Builtin.ofSpelling? base = none) {names : List Text}
    (pieces : (scopePieces base).filter (fun name => !name.isEmpty) = names) (depth : Nat) :
    (Parameter.spelled (pointerSpelling base depth)).type =
      (List.replicate depth 'P',
        if 1 < names.length then .nested names else .source base) := by
  rw [isPath.spelled_pointerSpelling, Parameter.type, Parameter.baseType_of_not_isBuiltin,
    Parameter.scopeNames, pieces]
  rw [Parameter.isBuiltin, other]
  rfl

/-- It can be told from what is written for it, if no name begins with a digit. -/
theorem isReadable_pointerSpelling
    (undigited : ∀ piece ∈ scopePieces base, startsWithDigit piece = false) (depth : Nat) :
    (Parameter.spelled (pointerSpelling base depth)).IsReadable := by
  rw [isPath.spelled_pointerSpelling]
  exact
    { based := isPath.named
      coded := fun code member => Or.inr (List.eq_of_mem_replicate member)
      named := fun _ => undigited }

/-- There is something visible in it. -/
theorem exists_visible : ∃ char ∈ base, isBlank char = false := by
  obtain ⟨char, member⟩ := List.exists_mem_of_ne_nil base isPath.named
  refine ⟨char, member, ?_⟩
  rcases isPath.joins char member with colon | joins
  · rw [colon]
    decide
  · exact isBlank_of_isIdentifierChar joins

end IsPathText

/-- No fundamental type is spelled with a separator in front. -/
theorem TypePath.ofSpelling_rooted (path : TypePath) : Builtin.ofSpelling? path.rooted = none := by
  have front : path.rooted.head? = some ':' := rfl
  cases found : Builtin.ofSpelling? path.rooted with
  | none => rfl
  | some kind =>
    rcases Builtin.spelling_of_ofSpelling found with same | ⟨same, _⟩
    · rw [same] at front
      cases kind <;> exact absurd front (by decide)
    · rw [same] at front
      exact absurd front (by decide)

namespace TypePath

variable (path : TypePath) (depth : Nat)

/-- The pieces of a path are its names. -/
theorem scopePieces_text : scopePieces path.text = path.names :=
  scopePieces_joinNames path.nonempty fun name member => (path.worded name member).isPiece.2

/-- The separator in front leaves an empty piece. -/
theorem scopePieces_rooted : scopePieces path.rooted = [] :: path.names := by
  rw [← path.scopePieces_text]
  exact @scopePieces_append [] (by simp) path.text

/-- No name of a path is empty. -/
theorem filter_names : path.names.filter (fun name => !name.isEmpty) = path.names := by
  rw [List.filter_eq_self]
  intro name member
  simpa using (path.worded name member).1

/-- A path with pointers names its names, if there are several of them, and its text otherwise. -/
theorem type_text :
    (Parameter.spelled (pointerSpelling path.text depth)).type =
      (List.replicate depth 'P',
        if 1 < path.names.length then .nested path.names else .source path.text) :=
  path.isPathText_text.type_pointerSpelling path.other
    (by rw [scopePieces_text, filter_names]) depth

/-- From the outermost scope on, it names the same, unless its names are a single one. -/
theorem type_rooted :
    (Parameter.spelled (pointerSpelling path.rooted depth)).type =
      (List.replicate depth 'P',
        if 1 < path.names.length then .nested path.names else .source path.rooted) :=
  -- The empty piece in front is no name.
  path.isPathText_rooted.type_pointerSpelling path.ofSpelling_rooted
    (by rw [scopePieces_rooted, List.filter_cons_of_neg (by simp), filter_names]) depth

end TypePath

/-- Over every table, parameters with the same names on their paths, if these are several, and the same
qualifiers are encoded alike. -/
theorem Table.encode_congr_scopeNames (table : Table) {first second : Parameter}
    (other : first.isBuiltin = false) (also : second.isBuiltin = false)
    (several : 1 < first.scopeNames.length) (names : first.scopeNames = second.scopeNames)
    (qualifiers : first.qualifiers = second.qualifiers) :
    table.encode first = table.encode second := by
  have named : first.scopeNames ≠ [] := List.ne_nil_of_length_pos (Nat.lt_of_succ_lt several)
  refine table.encode_congr (Parameter.base_ne_nil_of_scopeNames named)
    (Parameter.base_ne_nil_of_scopeNames (names ▸ named)) ?_
  rw [Parameter.type, Parameter.type, qualifiers, Parameter.baseType_of_not_isBuiltin other,
    Parameter.baseType_of_not_isBuiltin also, ← names, if_pos several, if_pos several]

/-- Over one table a parameter in the open place is written behind what stands in front of it, and the
parameters behind it go on with the table that it leaves. -/
theorem ListContext.exists_table (context : ListContext) :
    ∃ (symbol : Text) (met : Table), ∀ {base : Text}, IsPathText base → ∀ depth,
      let parameter := Parameter.spelled (pointerSpelling base depth)
      (mangle (context.signature (pointerSpelling base depth))).outcome =
        .ok (symbol ++ ((met.encode parameter).1 ++
          ((met.encode parameter).2.encodeAll (describedParameters context.back)).1.flatten)) := by
  have written : ∀ spellings, listSignature context.head spellings ++ context.trailing =
      context.head ++ '(' :: ([','].intercalate spellings ++ ')' :: context.trailing) := by
    intro spellings
    simp [listSignature]
  have accepted := context.accepted
  rw [written] at accepted
  obtain ⟨symbol, table, listed⟩ := mangle_refill accepted context.listed context.closed
  let codes := (table.encodeAll (describedParameters context.front)).1.flatten
  refine ⟨symbol ++ codes, (table.encodeAll (describedParameters context.front)).2, ?_⟩
  intro base isPath depth parameter
  have free : ∀ spelling ∈ context.front ++ pointerSpelling base depth :: context.back,
      ',' ∉ spelling := by
    intro spelling member
    have own : ',' ∉ pointerSpelling base depth := by
      simp [pointerSpelling, isPath.not_mem (show ',' ≠ ':' by decide) (by decide)]
    rcases List.mem_append.mp member with front | behind
    · exact context.separate spelling (List.mem_append_left _ front)
    · rcases List.mem_cons.mp behind with rfl | back
      · exact own
      · exact context.separate spelling (List.mem_append_right _ back)
  obtain ⟨char, inside, visible⟩ := isPath.exists_visible
  have seen := @writtenParameters_intercalate _ free (pointerSpelling base depth) char (by simp)
    (List.mem_append_left _ inside) visible
  have based : baseOf (pointerSpelling base depth) ≠ [] := by
    have read : baseOf (pointerSpelling base depth) = base :=
      congrArg Parameter.base (isPath.spelled_pointerSpelling depth)
    rw [read]
    exact isPath.named
  rw [signature, written, listed, Table.encodeList_commaPieces, seen,
    describedParameters_append_cons _ _ based, Table.encodeAll_append]
  simp [Table.encodeAll, codes, parameter]

/-- Whatever stands around a parameter, a separator in front of its type leaves the symbol as it is if
the type is a path of several names, and changes it if the type is a single name. For every base that
is no fundamental type the encoding is told by the names on its path only if there are several of
them; an only name keeps its separators. -/
theorem ListContext.mangle_rooted (context : ListContext) (path : TypePath) (depth : Nat) :
    (∃ symbol rootedSymbol,
      (mangle (context.signature (pointerSpelling path.text depth))).outcome = .ok symbol ∧
      (mangle (context.signature (pointerSpelling path.rooted depth))).outcome =
        .ok rootedSymbol ∧
      (1 < path.names.length → rootedSymbol = symbol) ∧
      (path.names.length = 1 → (∀ name ∈ path.names, startsWithDigit name = false) →
        rootedSymbol ≠ symbol)) ∧
    ∀ parameter : Parameter, parameter.base ≠ [] → parameter.isBuiltin = false →
      parameter.encodedBase =
        (if 1 < parameter.scopeNames.length then nestedName parameter.scopeNames
          else sourceName parameter.base) ∧
      ∀ same : Parameter, same.isBuiltin = false → 1 < parameter.scopeNames.length →
        parameter.scopeNames = same.scopeNames → parameter.qualifiers = same.qualifiers →
          ∀ table : Table, table.encode parameter = table.encode same := by
  constructor
  · obtain ⟨symbol, met, written⟩ := context.exists_table
    refine ⟨_, _, written path.isPathText_text depth, written path.isPathText_rooted depth, ?_, ?_⟩
    · intro several
      have types : (Parameter.spelled (pointerSpelling path.rooted depth)).type =
          (Parameter.spelled (pointerSpelling path.text depth)).type := by
        rw [path.type_rooted, path.type_text, if_pos several, if_pos several]
      have based := path.isPathText_text.named
      have also := path.isPathText_rooted.named
      rw [met.encode_congr (by rwa [path.isPathText_rooted.spelled_pointerSpelling])
        (by rwa [path.isPathText_text.spelled_pointerSpelling]) types]
    · intro single undigited same
      have readable := path.isPathText_text.isReadable_pointerSpelling
        (by rwa [path.scopePieces_text]) depth
      have alsoReadable := path.isPathText_rooted.isReadable_pointerSpelling
        (by simpa [path.scopePieces_rooted, startsWithDigit] using undigited) depth
      -- One table writes different types in different ways, and these are different names.
      obtain ⟨types, _⟩ :=
        met.encode_injective alsoReadable readable (List.append_cancel_left same)
      have only : ¬1 < path.names.length := by omega
      rw [path.type_rooted, path.type_text, if_neg only, if_neg only] at types
      have texts : path.rooted = path.text := by simpa using types
      have longer : path.rooted.length = 2 + path.text.length := List.length_append
      rw [texts] at longer
      omega
  · intro parameter based other
    exact ⟨Parameter.encodedBase_of_not_isBuiltin based other,
      fun same also several names qualifiers table =>
        table.encode_congr_scopeNames other also several names qualifiers⟩

/-- The separator makes no difference to a path that goes on from a scope of the function, and is kept
in a name that no entry begins with. -/
theorem ListContext.mangle_rooted_scoped :
    (mangle "a::g(int,::a::b::c**,a::b) const".toList).outcome =
        (mangle "a::g(int,a::b::c**,a::b) const".toList).outcome ∧
      (mangle "a::g(int,::c**,a::b) const".toList).outcome ≠
        (mangle "a::g(int,c**,a::b) const".toList).outcome := by
  let context : ListContext :=
    { head := "a::g".toList
      front := ["int".toList]
      back := ["a::b".toList]
      trailing := " const".toList
      tokens := [.name "a".toList, .scope, .name "g".toList, .params [] [[]], .const, .stop]
      accepted := by with_unfolding_all rfl
      listed := by decide
      closed := by decide
      separate := by decide }
  let nested : TypePath :=
    { names := ["a".toList, "b".toList, "c".toList]
      nonempty := by decide
      worded := by simp [IsWord]; decide
      plain := by decide
      other := by decide }
  let single : TypePath :=
    { names := ["c".toList]
      nonempty := by decide
      worded := by simp [IsWord]; decide
      plain := by decide
      other := by decide }
  obtain ⟨symbol, rooted, written, rootedWritten, several, _⟩ := (context.mangle_rooted nested 2).1
  obtain ⟨own, ownRooted, ownWritten, ownRootedWritten, _, lone⟩ :=
    (context.mangle_rooted single 2).1
  constructor
  · have same : rooted = symbol := several (by decide)
    exact rootedWritten.trans ((congrArg Except.ok same).trans written.symm)
  · intro same
    have equal := ownRootedWritten.symm.trans (same.trans ownWritten)
    exact lone rfl (by decide) (Except.ok.inj equal)

/-- A separator in front of a single name, or behind it, gets into its encoding, also where the name is
that of a scope around the function. -/
theorem mangle_rooted_single :
    (mangle "f(A)".toList).outcome = .ok "_Z1f1A".toList ∧
      (mangle "f(::A)".toList).outcome = .ok "_Z1f3::A".toList ∧
      (mangle "f(A::)".toList).outcome = .ok "_Z1f3A::".toList ∧
      (mangle "A::f(A)".toList).outcome = .ok "_ZN1A1fES_".toList ∧
      (mangle "A::f(::A)".toList).outcome = .ok "_ZN1A1fE3::A".toList := by
  refine ⟨?_, ?_, ?_, ?_, ?_⟩ <;> with_unfolding_all rfl

end Mangling
