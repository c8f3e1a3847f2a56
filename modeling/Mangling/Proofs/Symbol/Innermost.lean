import Mangling.Proofs.Symbol.Coherence

/-! Back references lead to innermost candidates: a base, or a fundamental type under one qualifier. -/

namespace Mangling

/-- An innermost candidate is neither a type under two qualifiers or more nor a class under any. -/
def IsInnermost (entry : Text) : Prop :=
  ∀ qualifiers base, entry = qualifiers ++ base → qualifiers ≠ [] →
    (∀ code ∈ qualifiers, code = 'K' ∨ code = 'P') →
    -- What is left is a fundamental type, which is no candidate without its qualifier.
    qualifiers.length = 1 ∧ ∃ kind : Builtin, base = kind.code

/-- What is no qualified type is an innermost candidate. -/
theorem IsUnqualified.isInnermost {entry : Text} (unqualified : IsUnqualified entry) :
    IsInnermost entry := by
  rintro qualifiers base rfl nonempty coded
  obtain ⟨code, codes, rfl⟩ := List.exists_cons_of_ne_nil nonempty
  have letters := unqualified code rfl
  exact absurd (coded code (List.mem_cons_self ..)) (not_or.mpr letters)

/-- A fundamental type under one qualifier is an innermost candidate. -/
theorem Builtin.isInnermost_cons (kind : Builtin) (code : Char) :
    IsInnermost (code :: kind.code) := by
  intro qualifiers base same nonempty coded
  obtain ⟨outer, codes, rfl⟩ := List.exists_cons_of_ne_nil nonempty
  rw [List.cons_append, List.cons.injEq] at same
  cases codes with
  | nil => exact ⟨rfl, kind, same.2.symm⟩
  | cons next others => exact absurd same.2 (kind.code_ne_cons (coded next (by simp)) _)

/-- In a coherent table the type inside the qualifiers stands in front of the qualified type, unless it is
fundamental. -/
theorem Table.IsCoherent.exists_inner {table : Table} (coherent : table.IsCoherent) {inner : Text}
    (unbuilt : ∀ kind : Builtin, inner ≠ kind.code) {outer : Text}
    (coded : ∀ code ∈ outer, code = 'K' ∨ code = 'P') {index : Nat}
    (located : table.entries[index]? = some (outer ++ inner)) :
    ∃ first ≤ index, table.entries[first]? = some inner := by
  -- Each qualifier that is taken off leads to an earlier entry.
  induction outer generalizing index with
  | nil => exact ⟨index, Nat.le_refl _, located⟩
  | cons code codes ih =>
    rcases coherent.wrapped index (code :: codes) inner located (by simp) coded with
      ⟨earlier, before, found⟩ | ⟨-, kind, fundamental⟩
    · obtain ⟨first, bounded, inside⟩ := ih (List.forall_mem_cons.mp coded).2 found
      exact ⟨first, by omega, inside⟩
    · exact absurd fundamental (unbuilt kind)

/-- In a coherent table a search is a look-up of what is inside all of the qualifiers. -/
theorem Table.IsCoherent.find_eq {table : Table} (coherent : table.IsCoherent) {inner : Text}
    (unbuilt : ∀ kind : Builtin, inner ≠ kind.code) {outer : Text}
    (coded : ∀ code ∈ outer, code = 'K' ∨ code = 'P') :
    table.find outer inner = (table.lookup inner).map fun index => (index, outer.length) := by
  have dropped : ∀ split, ∀ code ∈ outer.drop split, code = 'K' ∨ code = 'P' :=
    fun split code member => coded code (List.mem_of_mem_drop member)
  cases looked : table.lookup inner with
  | none =>
    rw [Option.map_none, find_eq_none_iff]
    intro split _ member
    obtain ⟨index, located⟩ := List.getElem?_of_mem member
    obtain ⟨first, _, inside⟩ := coherent.exists_inner unbuilt (dropped split) located
    exact lookup_eq_none_iff.mp looked (List.mem_of_getElem? inside)
  | some index =>
    rw [Option.map_some, find_eq_some_iff]
    refine ⟨Nat.le_refl _, by simpa using lookup_eq_some looked, ?_⟩
    -- An earlier match would have the type inside it at an earlier place still.
    intro earlier before split _ located
    obtain ⟨first, bounded, inside⟩ := coherent.exists_inner unbuilt (dropped split) located
    exact lookup_least looked first (by omega) inside

/-- The innermost qualifier of a type that is no entry belongs to what is searched for. -/
theorem Table.find_concat {table : Table} {base : Text} (absent : base ∉ table.entries)
    (outer : Text) (last : Char) :
    table.find (outer ++ [last]) base = table.find outer (last :: base) := by
  have shifted : ∀ split ≤ outer.length,
      (outer ++ [last]).drop split ++ base = outer.drop split ++ last :: base := by
    intro split bounded
    rw [List.drop_append_of_le_length bounded, List.append_assoc, List.singleton_append]
  cases searched : table.find outer (last :: base) with
  | none =>
    rw [find_eq_none_iff] at searched ⊢
    intro split bounded
    rw [List.length_append, List.length_singleton] at bounded
    by_cases whole : split = outer.length + 1
    · simpa [whole] using absent
    · rw [shifted split (by omega)]
      exact searched split (by omega)
  | some place =>
    obtain ⟨index, split⟩ := place
    obtain ⟨bounded, located, least⟩ := find_eq_some_iff.mp searched
    rw [find_eq_some_iff, shifted split bounded, List.length_append, List.length_singleton]
    refine ⟨by omega, located, ?_⟩
    intro earlier before other within found
    by_cases whole : other = outer.length + 1
    · exact absent (List.mem_of_getElem? (by simpa [whole] using found))
    · rw [shifted other (by omega)] at found
      exact least earlier before other (by omega) found

/-- A look-up succeeds exactly for the entries. -/
theorem Table.isSome_lookup_iff {table : Table} {encoding : Text} :
    (table.lookup encoding).isSome = true ↔ encoding ∈ table.entries := by
  cases looked : table.lookup encoding with
  | none => simpa using lookup_eq_none_iff.mp looked
  | some index => simpa using List.mem_of_getElem? (lookup_eq_some looked)

/-- A match is written as the qualifiers outside the entry and a reference to the entry. -/
theorem Table.encode_of_find {table : Table} {parameter : Parameter} (covered : ¬parameter.IsBare)
    {index split : Nat}
    (found : table.find parameter.qualifiers parameter.encodedBase = some (index, split)) :
    (table.encode parameter).1 = parameter.qualifiers.take split ++ backReference index := by
  have searched : ¬(parameter.isBuiltin && parameter.qualifiers.isEmpty) = true := by
    simpa [Parameter.IsBare] using covered
  rw [encode]
  simp only [if_neg searched, found]

/-- A path is no fundamental type. -/
theorem scopePath_ne_code (names : List Text) (kind : Builtin) : scopePath names ≠ kind.code := by
  obtain ⟨letter, rest, spelled, notDigit, _, _, notNested⟩ := kind.exists_head
  rw [spelled]
  unfold scopePath
  split
  next name =>
    obtain ⟨digit, others, named, isDigit⟩ := sourceName_eq_cons name
    rw [named]
    exact fun same => ne_of_isDigit isDigit notDigit (List.cons.inj same).1
  next => exact fun same => notNested (List.cons.inj same).1.symm

/-- The encoding of a class is a path. -/
theorem Parameter.exists_scopePath {parameter : Parameter} (based : parameter.base ≠ [])
    (other : parameter.isBuiltin = false) : ∃ names, parameter.encodedBase = scopePath names := by
  by_cases nested : parameter.isScoped = true
  · exact ⟨_, encodedBase_eq_scopePath nested⟩
  · refine ⟨[parameter.base], ?_⟩
    rw [encodedBase_eq based]
    rcases baseType_of_not_isScoped nested with ⟨kind, spelled, _⟩ | ⟨_, type⟩
    · simp [isBuiltin, spelled] at other
    · rw [type]
      rfl

/-- The encoding of a fundamental type is its code. -/
theorem Parameter.exists_code {parameter : Parameter} (based : parameter.base ≠ [])
    (builtin : parameter.isBuiltin = true) : ∃ kind : Builtin, parameter.encodedBase = kind.code := by
  have flat : ¬parameter.isScoped = true := by simp [isScoped, builtin]
  rw [encodedBase_eq based]
  rcases baseType_of_not_isScoped flat with ⟨kind, _, type⟩ | ⟨other, _⟩
  · exact ⟨kind, by rw [type]; rfl⟩
  · simp [builtin] at other

/-- In a coherent table a search for a class is a look-up of the class without its qualifiers. -/
theorem Table.IsCoherent.find_class {table : Table} (coherent : table.IsCoherent)
    {parameter : Parameter} (based : parameter.base ≠ [])
    (coded : ∀ code ∈ parameter.qualifiers, code = 'K' ∨ code = 'P')
    (other : parameter.isBuiltin = false) :
    table.find parameter.qualifiers parameter.encodedBase =
      (table.lookup parameter.encodedBase).map fun index => (index, parameter.qualifiers.length) := by
  obtain ⟨names, path⟩ := Parameter.exists_scopePath based other
  exact coherent.find_eq (fun kind => path ▸ scopePath_ne_code names kind) coded

/-- In a coherent table a search for a qualified fundamental type is a look-up of the type under its
innermost qualifier. -/
theorem Table.IsCoherent.find_builtin {table : Table} (coherent : table.IsCoherent)
    {parameter : Parameter} (based : parameter.base ≠ [])
    (coded : ∀ code ∈ parameter.qualifiers, code = 'K' ∨ code = 'P')
    (builtin : parameter.isBuiltin = true) {outer : Text} {last : Char}
    (qualified : parameter.qualifiers = outer ++ [last]) :
    table.find parameter.qualifiers parameter.encodedBase =
      (table.lookup (last :: parameter.encodedBase)).map fun index => (index, outer.length) := by
  obtain ⟨kind, fundamental⟩ := Parameter.exists_code based builtin
  rw [qualified] at coded ⊢
  obtain ⟨outside, inside⟩ := List.forall_mem_append.mp coded
  rw [find_concat (fundamental ▸ coherent.unbuilt kind)]
  have code := inside last (List.mem_singleton.mpr rfl)
  exact coherent.find_eq (fun kind same => kind.code_ne_cons code _ same.symm) outside

/-- A class is found in a coherent table exactly when it is an entry, and is then written as all of its
qualifiers and a reference to the class itself. -/
theorem Table.IsCoherent.encode_class {table : Table} (coherent : table.IsCoherent)
    {parameter : Parameter} (based : parameter.base ≠ [])
    (coded : ∀ code ∈ parameter.qualifiers, code = 'K' ∨ code = 'P')
    (other : parameter.isBuiltin = false) :
    ((table.find parameter.qualifiers parameter.encodedBase).isSome = true ↔
        parameter.encodedBase ∈ table.entries) ∧
      ∀ index, table.lookup parameter.encodedBase = some index →
        (table.encode parameter).1 = parameter.qualifiers ++ backReference index := by
  have found := coherent.find_class based coded other
  constructor
  · rw [found, Option.isSome_map, isSome_lookup_iff]
  · intro index looked
    rw [looked, Option.map_some] at found
    have covered : ¬parameter.IsBare := fun bare => by simp [bare.1] at other
    rw [encode_of_find covered found, List.take_length]

/-- A qualified fundamental type is found in a coherent table exactly when the type under its innermost
qualifier is an entry, and is then written as its other qualifiers and a reference to that entry. -/
theorem Table.IsCoherent.encode_builtin {table : Table} (coherent : table.IsCoherent)
    {parameter : Parameter} (based : parameter.base ≠ [])
    (coded : ∀ code ∈ parameter.qualifiers, code = 'K' ∨ code = 'P')
    (builtin : parameter.isBuiltin = true) {outer : Text} {last : Char}
    (qualified : parameter.qualifiers = outer ++ [last]) :
    ((table.find parameter.qualifiers parameter.encodedBase).isSome = true ↔
        last :: parameter.encodedBase ∈ table.entries) ∧
      ∀ index, table.lookup (last :: parameter.encodedBase) = some index →
        (table.encode parameter).1 = outer ++ backReference index := by
  have found := coherent.find_builtin based coded builtin qualified
  constructor
  · rw [found, Option.isSome_map, isSome_lookup_iff]
  · intro index looked
    rw [looked, Option.map_some] at found
    have covered : ¬parameter.IsBare := fun bare => by simp [bare.2] at qualified
    rw [encode_of_find covered found, qualified, List.take_left]

/-- A parameter is written with a reference to what the search for it finds. -/
theorem Table.find_of_form {table : Table} {parameter : Parameter} {split index : Nat}
    (form : table.form parameter = .reference split index) :
    table.find parameter.qualifiers parameter.encodedBase = some (index, split) := by
  unfold Table.form at form
  split at form
  · simp at form
  · split at form
    next first other found =>
      obtain ⟨rfl, rfl⟩ := Form.reference.inj form
      exact found
    next =>
      split at form
      · split at form <;> simp at form
      · simp at form

/-- In a coherent table the entry that a parameter refers to is an innermost candidate. -/
theorem Table.IsCoherent.isInnermost_of_form {table : Table} (coherent : table.IsCoherent)
    {parameter : Parameter} (based : parameter.base ≠ [])
    (coded : ∀ code ∈ parameter.qualifiers, code = 'K' ∨ code = 'P') {index : Nat}
    (target : (table.form parameter).index? = some index) :
    ∃ entry, table.entries[index]? = some entry ∧ IsInnermost entry := by
  have fits := table.form_fits parameter
  cases form : table.form parameter with
  | whole => simp [form, Form.index?] at target
  | member depth place =>
    -- The head of a nested name is a path.
    simp only [form, Form.index?, Option.some.injEq] at target
    rw [form] at fits
    obtain ⟨_, _, _, _, located, _⟩ := fits
    exact ⟨_, target ▸ located, (isUnqualified_scopePath _).isInnermost⟩
  | reference split place =>
    simp only [form, Form.index?, Option.some.injEq] at target
    subst target
    have found := find_of_form form
    by_cases builtin : parameter.isBuiltin = true
    · rw [form] at fits
      have qualified : parameter.qualifiers ≠ [] := fun none => fits.1 ⟨builtin, none⟩
      have ending := (List.dropLast_concat_getLast qualified).symm
      obtain ⟨kind, fundamental⟩ := Parameter.exists_code based builtin
      rw [coherent.find_builtin based coded builtin ending] at found
      obtain ⟨first, looked, same⟩ := Option.map_eq_some_iff.mp found
      rw [Prod.mk.injEq] at same
      refine ⟨_, same.1 ▸ lookup_eq_some looked, ?_⟩
      rw [fundamental]
      exact kind.isInnermost_cons _
    · have other : parameter.isBuiltin = false := by simpa using builtin
      obtain ⟨names, path⟩ := Parameter.exists_scopePath based other
      rw [coherent.find_class based coded other] at found
      obtain ⟨first, looked, same⟩ := Option.map_eq_some_iff.mp found
      rw [Prod.mk.injEq] at same
      refine ⟨_, same.1 ▸ lookup_eq_some looked, ?_⟩
      rw [path]
      exact (isUnqualified_scopePath names).isInnermost

/-- In a run over backed entries every reference leads to an innermost candidate. -/
theorem Table.isInnermost_of_formAll {table : Table} (backed : AreBacked [] table.entries)
    {parameters : List Parameter}
    (spelled : ∀ parameter ∈ parameters, Parameter.ofSpelling parameter.spelling = .ok parameter)
    (based : ∀ parameter ∈ parameters, parameter.base ≠ []) :
    ∀ turn ∈ table.formAll parameters, ∀ index, turn.2.index? = some index →
      ∃ entry, (table.encodeAll parameters).2.entries[index]? = some entry ∧ IsInnermost entry := by
  -- Each turn meets a coherent table, whose entries keep their indices for the rest of the run.
  induction parameters generalizing table with
  | nil => simp [formAll]
  | cons parameter parameters ih =>
    obtain ⟨first, later⟩ := List.forall_mem_cons.mp spelled
    obtain ⟨base, bases⟩ := List.forall_mem_cons.mp based
    have coded := Parameter.coded_of_ofSpelling first
    intro turn member index target
    rw [formAll, List.mem_cons] at member
    rcases member with rfl | behind
    · obtain ⟨entry, located, innermost⟩ :=
        backed.isCoherent.isInnermost_of_form base coded target
      obtain ⟨more, kept⟩ := table.entries_encodeAll (parameter :: parameters)
      have bounded := (List.getElem?_eq_some_iff.mp located).1
      exact ⟨entry, by rw [← kept, List.getElem?_append_left bounded, located], innermost⟩
    · exact ih (areBacked_encode backed base coded) later bases turn behind index target

/-- Once any scopes have been added and any parameters been written, a search for a class finds the
class without its qualifiers, a search for a fundamental type finds the type under its innermost
qualifier, and no reference so far leads to anything but such a candidate. -/
theorem Draft.encode_innermost (symbol : Text) {scopes : List Text}
    (built : ∀ scope ∈ scopes, IsComponent scope) {parameters : List Parameter}
    (spelled : ∀ parameter ∈ parameters, Parameter.ofSpelling parameter.spelling = .ok parameter)
    (based : ∀ parameter ∈ parameters, parameter.base ≠ []) :
    let start := (scopes.foldl Draft.addScope { symbol }).table
    let table := (start.encodeAll parameters).2
    (∀ parameter : Parameter, Parameter.ofSpelling parameter.spelling = .ok parameter →
      parameter.base ≠ [] →
        let qualifiers := parameter.qualifiers
        let base := parameter.encodedBase
        (parameter.isBuiltin = false →
          ((table.find qualifiers base).isSome = true ↔ base ∈ table.entries) ∧
            ∀ index, table.lookup base = some index →
              (table.encode parameter).1 = qualifiers ++ backReference index) ∧
        (parameter.isBuiltin = true → ∀ outer last, qualifiers = outer ++ [last] →
          ((table.find qualifiers base).isSome = true ↔ last :: base ∈ table.entries) ∧
            ∀ index, table.lookup (last :: base) = some index →
              (table.encode parameter).1 = outer ++ backReference index)) ∧
    ∀ turn ∈ start.formAll parameters, ∀ index, turn.2.index? = some index →
      ∃ entry, table.entries[index]? = some entry ∧ IsInnermost entry := by
  intro start table
  have added := ((isOrderly_fresh symbol false).addScopes built).areBacked
  have coherent := (Table.areBacked_encodeAll added spelled based).isCoherent
  refine ⟨fun parameter described nonempty => ?_, Table.isInnermost_of_formAll added spelled based⟩
  have coded := Parameter.coded_of_ofSpelling described
  exact ⟨fun other => coherent.encode_class nonempty coded other,
    fun builtin _ _ qualified => coherent.encode_builtin nonempty coded builtin qualified⟩

/-- After a scope, a class under qualifiers and a fundamental type under qualifiers, references lead to
the innermost candidates. -/
theorem Draft.encode_innermost_shared :
    let scopes := [[{ name := "a".toList }]].map (List.flatMap Component.encoding)
    let parameters := ["T const*", "const char**", "a::b*"].map
      fun spelling => Parameter.spelled spelling.toList
    let start := (scopes.foldl Draft.addScope { symbol := [] }).table
    let table := (start.encodeAll parameters).2
    let plain := Parameter.spelled "T const*".toList
    let builtin := Parameter.spelled "const char**".toList
    table.entries = ["1a", "1T", "K1T", "PK1T", "Kc", "PKc", "PPKc", "N1a1bE", "PN1a1bE"].map
        String.toList ∧
      (table.find plain.qualifiers plain.encodedBase).isSome = true ∧
      (table.encode plain).1 = ['P', 'K'] ++ backReference 1 ∧
      (table.find builtin.qualifiers builtin.encodedBase).isSome = true ∧
      (table.encode builtin).1 = ['P', 'P'] ++ backReference 4 ∧
      ∀ turn ∈ start.formAll parameters, ∀ index, turn.2.index? = some index →
        ∃ entry, table.entries[index]? = some entry ∧ IsInnermost entry := by
  intro scopes parameters start table plain builtin
  have spelled : ∀ parameter ∈ parameters,
      Parameter.ofSpelling parameter.spelling = .ok parameter :=
    List.forall_mem_map.mpr fun spelling _ => Parameter.ofSpelling_eq spelling.toList
  have based : ∀ parameter ∈ parameters, parameter.base ≠ [] := by decide +kernel
  have built : ∀ scope ∈ scopes, IsComponent scope := by
    refine List.forall_mem_map.mpr fun parts member => ⟨parts, ?_, ?_, rfl⟩
    · revert parts
      decide
    · revert parts
      decide
  have entries : table.entries = ["1a", "1T", "K1T", "PK1T", "Kc", "PKc", "PPKc", "N1a1bE",
      "PN1a1bE"].map String.toList := by decide +kernel
  obtain ⟨found, targets⟩ := encode_innermost [] built spelled based
  obtain ⟨ofPlain, -⟩ := found plain (Parameter.ofSpelling_eq _) (by decide +kernel)
  obtain ⟨-, ofBuiltin⟩ := found builtin (Parameter.ofSpelling_eq _) (by decide +kernel)
  obtain ⟨plainFound, plainWritten⟩ := ofPlain (by decide +kernel)
  obtain ⟨builtinFound, builtinWritten⟩ :=
    ofBuiltin (by decide +kernel) ['P', 'P'] 'K' (by decide +kernel)
  have outer : plain.qualifiers = ['P', 'K'] := by decide +kernel
  refine ⟨entries, plainFound.mpr ?_, ?_, builtinFound.mpr ?_, builtinWritten 4 ?_, targets⟩
  · rw [entries]
    decide +kernel
  · rw [← outer]
    refine plainWritten 1 ?_
    rw [Table.lookup, entries]
    decide +kernel
  · rw [entries]
    decide +kernel
  · rw [Table.lookup, entries]
    decide +kernel

end Mangling
