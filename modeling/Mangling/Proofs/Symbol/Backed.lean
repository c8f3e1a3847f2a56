import Mangling.Proofs.Symbol.Layout

/-! The entries of a table are backed: each is new, and what it is built on is in front of it. -/

namespace Mangling

/-- A component of a path as it is written: names, each with or without template arguments. -/
def IsComponent (text : Text) : Prop :=
  ∃ parts : List Component, parts ≠ [] ∧ (∀ part ∈ parts, part.name ≠ []) ∧
    text = parts.flatMap Component.encoding

/-- An entry is backed when it is new and what it is built on is fundamental or there already. -/
structure IsBacked (earlier : List Text) (entry : Text) : Prop where
  fresh : entry ∉ earlier
  unbuilt : ∀ kind : Builtin, kind.code ≠ entry
  wrapped : ∀ code base, entry = code :: base → code = 'K' ∨ code = 'P' →
    base ∈ earlier ∨ ∃ kind : Builtin, base = kind.code
  nested : ∀ names, entry = 'N' :: names →
    ∃ components, 2 ≤ components.length ∧ (∀ component ∈ components, IsComponent component) ∧
      entry = scopeEncoding components ∧ scopeEncoding components.dropLast ∈ earlier

/-- Entries are backed when each is backed by those in front of it. -/
def AreBacked (earlier : List Text) : List Text → Prop
  | [] => True
  | entry :: entries => IsBacked earlier entry ∧ AreBacked (earlier ++ [entry]) entries

/-- Entries can be added in two steps. -/
theorem areBacked_append {earlier front back : List Text} :
    AreBacked earlier (front ++ back) ↔ AreBacked earlier front ∧ AreBacked (earlier ++ front) back := by
  induction front generalizing earlier with
  | nil => simp [AreBacked]
  | cons entry front ih => simp [AreBacked, ih, and_assoc]

/-- Backed entries do not repeat anything. -/
theorem AreBacked.nodup {earlier entries : List Text} (backed : AreBacked earlier entries)
    (distinct : earlier.Nodup) : (earlier ++ entries).Nodup := by
  -- Each entry is new to all of those in front of it.
  induction entries generalizing earlier with
  | nil => simpa using distinct
  | cons entry entries ih =>
    have next : (earlier ++ [entry]).Nodup := by
      rw [List.nodup_append]
      refine ⟨distinct, by simp, ?_⟩
      rintro other member _ same rfl
      exact backed.1.fresh (List.mem_singleton.mp same ▸ member)
    simpa using ih backed.2 next

/-- Every one of backed entries is backed by those in front of it. -/
theorem AreBacked.isBacked {earlier entries : List Text} (backed : AreBacked earlier entries)
    {index : Nat} {entry : Text} (located : entries[index]? = some entry) :
    IsBacked (earlier ++ entries.take index) entry := by
  induction entries generalizing earlier index with
  | nil => simp at located
  | cons first entries ih =>
    cases index with
    | zero =>
      simp only [List.getElem?_cons_zero, Option.some.injEq] at located
      simpa [located] using backed.1
    | succ index => simpa using ih backed.2 (by simpa using located)

/-- No fundamental type is a type under a qualifier. -/
theorem Builtin.code_ne_cons (kind : Builtin) {code : Char} (coded : code = 'K' ∨ code = 'P')
    (inner : Text) : kind.code ≠ code :: inner := by
  obtain ⟨letter, rest, spelled, _, notConst, notPointer, _⟩ := kind.exists_head
  rw [spelled]
  rintro ⟨⟩
  exact coded.elim notConst notPointer

/-- A new entry that begins with a digit needs nothing to be built on. -/
theorem isBacked_of_digit {earlier : List Text} {entry : Text} (fresh : entry ∉ earlier)
    (headed : ∃ digit rest, entry = digit :: rest ∧ digit.isDigit = true) :
    IsBacked earlier entry := by
  obtain ⟨digit, rest, rfl, isDigit⟩ := headed
  have unmarked : ∀ {mark : Char} {text : Text}, mark.isDigit = false → digit :: rest ≠ mark :: text :=
    fun other same => ne_of_isDigit isDigit other (List.cons.inj same).1
  refine { fresh, unbuilt := ?_, wrapped := ?_, nested := ?_ }
  · intro kind same
    obtain ⟨letter, others, spelled, other, _⟩ := kind.exists_head
    exact unmarked other (same.symm.trans spelled)
  · rintro code base same (rfl | rfl)
    · exact absurd same (unmarked (by decide))
    · exact absurd same (unmarked (by decide))
  · intro names same
    exact absurd same (unmarked (by decide))

/-- A name is a component. -/
theorem isComponent_sourceName {name : Text} (named : name ≠ []) :
    IsComponent (sourceName name) :=
  ⟨[{ name }], by simp, by simpa using named, by simp [Component.encoding]⟩

/-- A component begins with the length of its first name. -/
theorem IsComponent.exists_head {text : Text} (built : IsComponent text) :
    ∃ digit rest, text = digit :: rest ∧ digit.isDigit = true := by
  obtain ⟨parts, nonempty, _, rfl⟩ := built
  obtain ⟨part, parts, rfl⟩ := List.exists_cons_of_ne_nil nonempty
  obtain ⟨digit, rest, spelled, isDigit⟩ := sourceName_eq_cons part.name
  exact ⟨digit, _, by rw [List.flatMap_cons, Component.encoding, spelled]; rfl, isDigit⟩

/-- With more components around it a path has a longer encoding. -/
theorem length_scopeEncoding_lt {scopes : List Text} (nonempty : scopes ≠ []) {more : Text}
    (spelled : more ≠ []) (others : List Text) :
    (scopeEncoding scopes).length < (scopeEncoding (scopes ++ more :: others)).length := by
  have positive := List.length_pos_iff.mpr spelled
  match scopes with
  | [] => exact absurd rfl nonempty
  | [scope] =>
    -- A component on its own gets marks around it as soon as another one follows.
    simp only [scopeEncoding, List.cons_append, List.nil_append, List.flatten_cons,
      List.length_cons, List.length_append]
    omega
  | outer :: inner :: scopes =>
    simp only [scopeEncoding, List.cons_append, List.flatten_cons, List.flatten_append,
      List.length_cons, List.length_append]
    omega

/-- A path is backed by the path around its last component. -/
theorem isBacked_scopeEncoding {earlier around : List Text} {scope : Text}
    (built : ∀ component ∈ around ++ [scope], IsComponent component)
    (known : around = [] ∨ scopeEncoding around ∈ earlier)
    (fresh : scopeEncoding (around ++ [scope]) ∉ earlier) :
    IsBacked earlier (scopeEncoding (around ++ [scope])) := by
  cases around with
  | nil => exact isBacked_of_digit fresh (built scope (by simp)).exists_head
  | cons outer around =>
    -- Two components or more are a nested name.
    have several : 2 ≤ (outer :: around ++ [scope]).length := by simp
    obtain ⟨names, marked⟩ : ∃ names, scopeEncoding (outer :: around ++ [scope]) = 'N' :: names := by
      cases around <;> exact ⟨_, rfl⟩
    refine { fresh, unbuilt := ?_, wrapped := ?_, nested := ?_ }
    · intro kind same
      obtain ⟨letter, rest, spelled, _, _, _, notNested⟩ := kind.exists_head
      rw [spelled, marked, List.cons.injEq] at same
      exact notNested same.1
    · rintro code base same (rfl | rfl)
      · exact absurd (List.cons.inj (marked.symm.trans same)).1 (by decide)
      · exact absurd (List.cons.inj (marked.symm.trans same)).1 (by decide)
    · -- Without its last component the nested name is the path around it.
      intro _ _
      refine ⟨outer :: around ++ [scope], several, built, rfl, ?_⟩
      rw [List.dropLast_concat]
      exact known.resolve_left (by simp)

/-- The paths of scopes are backed when none of them is there and the path around them is. -/
theorem areBacked_scopeEncodings {earlier around scopes : List Text}
    (built : ∀ component ∈ around ++ scopes, IsComponent component)
    (known : around = [] ∨ scopeEncoding around ∈ earlier)
    (fresh : ∀ front, front ≠ [] → front <+: scopes → scopeEncoding (around ++ front) ∉ earlier) :
    AreBacked earlier (scopeEncodings around scopes) := by
  induction scopes generalizing earlier around with
  | nil => trivial
  | cons scope scopes ih =>
    have front : around ++ scope :: scopes = around ++ [scope] ++ scopes := by simp
    rw [front] at built
    rw [scopeEncodings_cons]
    refine ⟨isBacked_scopeEncoding (fun component member =>
        built component (List.mem_append_left _ member)) known
        (fresh [scope] (by simp) (by simp)), ih built (Or.inr (by simp)) ?_⟩
    intro deeper nonempty isPrefix
    have absent := fresh (scope :: deeper) (by simp) (List.cons_prefix_cons.mpr ⟨rfl, isPrefix⟩)
    rw [show around ++ scope :: deeper = around ++ [scope] ++ deeper by simp] at absent
    rw [List.mem_append, not_or]
    refine ⟨absent, ?_⟩
    -- The path that has just been added is shorter.
    obtain ⟨more, others, rfl⟩ := List.exists_cons_of_ne_nil nonempty
    have spelled : more ≠ [] := by
      obtain ⟨_, _, rfl, _⟩ := (built more (List.mem_append_right _
        (isPrefix.subset (List.mem_cons_self ..)))).exists_head
      simp
    have longer := @length_scopeEncoding_lt (around ++ [scope]) (by simp) more spelled others
    intro same
    rw [List.mem_singleton.mp same] at longer
    exact Nat.lt_irrefl _ longer

/-- The paths behind a known depth are backed when none of them is there. -/
theorem areBacked_pathsBehind {earlier names : List Text} {depth : Nat}
    (bounded : depth ≤ names.length) (named : ∀ name ∈ names, name ≠ [])
    (known : depth = 0 ∨ scopePath (names.take depth) ∈ earlier)
    (fresh : ∀ deeper, depth < deeper → deeper ≤ names.length →
      scopePath (names.take deeper) ∉ earlier) :
    AreBacked earlier (pathsBehind depth names) := by
  -- The paths are those of scopes inside the known ones.
  have inside := scopeEncodings_sourceNames (names.take depth) (names.drop depth)
  rw [List.length_take, Nat.min_eq_left bounded, List.take_append_drop] at inside
  rw [← inside]
  apply areBacked_scopeEncodings
  · intro component member
    rw [← List.map_append, List.take_append_drop] at member
    obtain ⟨name, among, rfl⟩ := List.mem_map.mp member
    exact isComponent_sourceName (named name among)
  · rw [scopeEncoding_sourceNames]
    exact known.imp_left fun none => by simp [none]
  · intro front nonempty isPrefix
    have some := List.length_pos_iff.mpr nonempty
    have short := isPrefix.length_le
    rw [List.length_map, List.length_drop] at short
    have taken := List.prefix_iff_eq_take.mp isPrefix
    rw [← List.map_take] at taken
    rw [taken, ← List.map_append, scopeEncoding_sourceNames, ← List.take_add]
    exact fresh _ (by omega) (by omega)

/-- Only a qualified type begins with the code of a qualifier. -/
def IsUnqualified (text : Text) : Prop :=
  ∀ code ∈ text.head?, code ≠ 'K' ∧ code ≠ 'P'

/-- A source name is no qualified type. -/
theorem isUnqualified_sourceName (name : Text) : IsUnqualified (sourceName name) := by
  obtain ⟨digit, rest, spelled, isDigit⟩ := sourceName_eq_cons name
  intro code head
  rw [spelled, List.head?_cons, Option.mem_some_iff] at head
  exact head ▸ ⟨ne_of_isDigit isDigit (by decide), ne_of_isDigit isDigit (by decide)⟩

/-- A path is no qualified type. -/
theorem isUnqualified_scopePath (names : List Text) : IsUnqualified (scopePath names) := by
  unfold scopePath
  split
  · exact isUnqualified_sourceName _
  · simp [IsUnqualified, nestedName]

/-- A form under qualifiers is no longer than the base under all of them. -/
theorem length_le_of_mem_qualifiedForms {qualifiers base form : Text}
    (member : form ∈ qualifiedForms qualifiers base) :
    form.length ≤ qualifiers.length + base.length := by
  induction qualifiers with
  | nil => simp [qualifiedForms] at member
  | cons code codes ih =>
    rw [qualifiedForms, List.mem_append, List.mem_singleton] at member
    rcases member with inner | rfl
    · have shorter := ih inner
      simp only [List.length_cons]
      omega
    · simp only [List.length_cons, List.length_append]
      omega

/-- The form under all qualifiers is among the forms, unless there is no qualifier. -/
theorem mem_qualifiedForms {qualifiers : Text} (nonempty : qualifiers ≠ []) (base : Text) :
    qualifiers ++ base ∈ qualifiedForms qualifiers base := by
  obtain ⟨code, codes, rfl⟩ := List.exists_cons_of_ne_nil nonempty
  simp [qualifiedForms]

/-- The forms of a base under qualifiers are backed when the base is and none of them is there. -/
theorem areBacked_qualifiedForms {earlier : List Text} {qualifiers base : Text}
    (coded : ∀ code ∈ qualifiers, code = 'K' ∨ code = 'P')
    (founded : base ∈ earlier ∨ ∃ kind : Builtin, base = kind.code)
    (fresh : ∀ split < qualifiers.length, qualifiers.drop split ++ base ∉ earlier) :
    AreBacked earlier (qualifiedForms qualifiers base) := by
  induction qualifiers with
  | nil => trivial
  | cons code codes ih =>
    obtain ⟨outer, inner⟩ := List.forall_mem_cons.mp coded
    have unknown : code :: (codes ++ base) ∉ earlier := fresh 0 (by simp)
    rw [qualifiedForms, areBacked_append]
    refine ⟨ih inner fun split bounded => fresh (split + 1) (by simpa using bounded), ?_, trivial⟩
    -- The outermost qualifier stands in front of the form that was added last.
    refine { fresh := ?_, unbuilt := ?_, wrapped := ?_, nested := ?_ }
    · rw [List.mem_append, not_or]
      refine ⟨unknown, fun member => ?_⟩
      have shorter := length_le_of_mem_qualifiedForms member
      simp only [List.length_cons, List.length_append] at shorter
      omega
    · exact fun kind => kind.code_ne_cons outer _
    · rintro _ _ same -
      obtain ⟨rfl, rfl⟩ := List.cons.inj same
      cases codes with
      | nil => exact founded.imp_left (List.mem_append_left _)
      | cons next others => exact Or.inl (List.mem_append_right _ (mem_qualifiedForms (by simp) base))
    · intro names same
      rw [(List.cons.inj same).1] at outer
      exact absurd outer (by decide)

/-- A depth is short of the whole path, it is that of a known path or none at all, and no deeper path
is known. -/
structure Parameter.IsDeepest (entries : List Text) (parameter : Parameter) (known : Nat) : Prop where
  short : known < parameter.scopeNames.length
  reached : known = 0 ∨ scopePath (parameter.scopeNames.take known) ∈ entries
  unknown : ∀ deeper, known < deeper → deeper < parameter.scopeNames.length →
    scopePath (parameter.scopeNames.take deeper) ∉ entries

/-- A scoped base is the whole of its path. -/
theorem Parameter.encodedBase_eq_scopePath {parameter : Parameter}
    (nested : parameter.isScoped = true) :
    parameter.encodedBase = scopePath parameter.scopeNames := by
  obtain ⟨outer, inner, others, path⟩ := exists_outer_inner (isScoped_iff.mp nested).2
  rw [encodedBase_of_isScoped nested, path, scopePath_cons_cons]

/-- The encodings of a base that a table can remember, when paths up to a depth are known. -/
def Parameter.baseCandidates (parameter : Parameter) (known : Nat) : List Text :=
  if parameter.isScoped then pathsBehind known parameter.scopeNames
  else if parameter.isBuiltin then []
  else [parameter.encodedBase]

/-- The candidates of a parameter are those of its base, and then the forms under its qualifiers. -/
theorem Parameter.candidates_eq (parameter : Parameter) (known : Nat) :
    parameter.candidates known =
      parameter.baseCandidates known ++ qualifiedForms parameter.qualifiers parameter.encodedBase :=
  rfl

/-- The encodings of a base are no qualified types, and the base is among them unless it is
fundamental. -/
theorem Parameter.encodedBase_mem_baseCandidates {parameter : Parameter}
    (based : parameter.base ≠ []) {known : Nat}
    (short : parameter.isScoped = true → known < parameter.scopeNames.length) :
    (∀ candidate ∈ parameter.baseCandidates known, IsUnqualified candidate) ∧
      (parameter.encodedBase ∈ parameter.baseCandidates known ∨
        ∃ kind : Builtin, parameter.encodedBase = kind.code) := by
  unfold baseCandidates
  by_cases nested : parameter.isScoped = true
  · rw [if_pos nested, pathsBehind_eq]
    constructor
    · intro candidate member
      obtain ⟨names, _, rfl⟩ := List.mem_map.mp member
      exact isUnqualified_scopePath names
    · left
      rw [encodedBase_eq_scopePath nested]
      exact List.mem_map_of_mem (List.mem_of_getLast? (getLast?_prefixesBehind (short nested)))
  · rw [if_neg nested, encodedBase_eq based]
    rcases baseType_of_not_isScoped nested with ⟨kind, spelled, type⟩ | ⟨other, type⟩
    · have builtin : parameter.isBuiltin = true := by simp [isBuiltin, spelled]
      exact ⟨by simp [builtin], Or.inr ⟨kind, by rw [type]; rfl⟩⟩
    · rw [type, other]
      exact ⟨by simpa [BaseType.encoding] using isUnqualified_sourceName _, Or.inl (by simp)⟩

/-- The encodings of a base are backed when the base is not there and the known path is. -/
theorem Parameter.areBacked_baseCandidates {parameter : Parameter} (based : parameter.base ≠ [])
    {entries : List Text} {known : Nat} (absent : parameter.encodedBase ∉ entries)
    (deepest : parameter.isScoped = true → parameter.IsDeepest entries known) :
    AreBacked entries (parameter.baseCandidates known) := by
  unfold baseCandidates
  by_cases nested : parameter.isScoped = true
  · -- Deeper paths than the known one are unknown, and so is the whole path, which is the base.
    have known := deepest nested
    rw [if_pos nested]
    refine areBacked_pathsBehind (Nat.le_of_lt known.short) ?_ known.reached ?_
    · intro name member
      simpa using (List.mem_filter.mp member).2
    · intro deeper beyond bounded
      by_cases whole : deeper = parameter.scopeNames.length
      · rw [whole, List.take_length, ← encodedBase_eq_scopePath nested]
        exact absent
      · exact known.unknown deeper beyond (by omega)
  · rw [if_neg nested]
    rcases baseType_of_not_isScoped nested with ⟨kind, spelled, _⟩ | ⟨other, type⟩
    · have builtin : parameter.isBuiltin = true := by simp [isBuiltin, spelled]
      rw [if_pos builtin]
      trivial
    · rw [other, if_neg (by simp)]
      refine ⟨isBacked_of_digit absent ?_, trivial⟩
      rw [encodedBase_eq based, type]
      exact sourceName_eq_cons parameter.base

/-- The candidates of a parameter are backed when the parameter is not matched and the known path is
the deepest one that is there. -/
theorem Parameter.areBacked_candidates {parameter : Parameter} (based : parameter.base ≠ [])
    (coded : ∀ code ∈ parameter.qualifiers, code = 'K' ∨ code = 'P') {entries : List Text}
    {known : Nat} (unmatched : ¬parameter.IsMatched entries)
    (deepest : parameter.isScoped = true → parameter.IsDeepest entries known) :
    AreBacked entries (parameter.candidates known) := by
  have absent : ∀ split ≤ parameter.qualifiers.length,
      parameter.qualifiers.drop split ++ parameter.encodedBase ∉ entries :=
    fun split bounded member => unmatched ⟨split, bounded, member⟩
  obtain ⟨unqualified, founded⟩ :=
    encodedBase_mem_baseCandidates based fun nested => (deepest nested).short
  rw [candidates_eq, areBacked_append]
  refine ⟨areBacked_baseCandidates based ?_ deepest,
    areBacked_qualifiedForms coded (founded.imp_left (List.mem_append_right _)) ?_⟩
  · simpa using absent parameter.qualifiers.length (Nat.le_refl _)
  · intro split bounded
    rw [List.mem_append, not_or]
    refine ⟨absent split (Nat.le_of_lt bounded), fun member => ?_⟩
    -- A form with a qualifier in front is none of the encodings of the base.
    obtain ⟨code, codes, rest⟩ := List.exists_cons_of_ne_nil
      (List.ne_nil_of_length_pos (by simpa using Nat.sub_pos_of_lt bounded) :
        parameter.qualifiers.drop split ≠ [])
    have letters := unqualified _ member code (by simp [rest])
    have qualifier : code ∈ parameter.qualifiers :=
      List.mem_of_mem_drop (rest ▸ List.mem_cons_self ..)
    exact (coded code qualifier).elim letters.1 letters.2

/-- What a table remembers of a parameter is backed by its entries. -/
theorem Table.areBacked_remembered (table : Table) {parameter : Parameter}
    (based : parameter.base ≠ []) (coded : ∀ code ∈ parameter.qualifiers, code = 'K' ∨ code = 'P') :
    AreBacked table.entries ((table.form parameter).remembered parameter) := by
  -- The form tells what the searches found, and so what is new to the table.
  have fits := table.form_fits parameter
  cases form : table.form parameter with
  | whole =>
    rw [form] at fits
    rcases fits with ⟨builtin, unqualified⟩ | ⟨unmatched, unknown⟩
    · simp [Form.remembered, Parameter.candidates, Parameter.isScoped, builtin, unqualified,
        qualifiedForms, AreBacked]
    · refine Parameter.areBacked_candidates based coded unmatched fun nested => ?_
      have long := (Parameter.isScoped_iff.mp nested).2
      exact { short := by omega, reached := Or.inl rfl, unknown := unknown nested }
  | reference split index => trivial
  | member depth index =>
    rw [form] at fits
    obtain ⟨unmatched, _, _, short, located, unknown⟩ := fits
    exact Parameter.areBacked_candidates based coded unmatched fun _ =>
      { short, reached := Or.inr (List.mem_of_getElem? located), unknown }

/-- Encoding a parameter keeps the entries backed. -/
theorem Table.areBacked_encode {table : Table} (backed : AreBacked [] table.entries)
    {parameter : Parameter} (based : parameter.base ≠ [])
    (coded : ∀ code ∈ parameter.qualifiers, code = 'K' ∨ code = 'P') :
    AreBacked [] (table.encode parameter).2.entries := by
  rw [entries_encode]
  exact areBacked_append.mpr ⟨backed, table.areBacked_remembered based coded⟩

/-- A run of parameters with bases keeps the entries backed. -/
theorem Table.areBacked_encodeAll {table : Table} (backed : AreBacked [] table.entries)
    {parameters : List Parameter}
    (spelled : ∀ parameter ∈ parameters, Parameter.ofSpelling parameter.spelling = .ok parameter)
    (based : ∀ parameter ∈ parameters, parameter.base ≠ []) :
    AreBacked [] (table.encodeAll parameters).2.entries := by
  -- Each parameter meets the table that the one in front of it left.
  induction parameters generalizing table with
  | nil => exact backed
  | cons parameter parameters ih =>
    obtain ⟨first, later⟩ := List.forall_mem_cons.mp spelled
    obtain ⟨base, bases⟩ := List.forall_mem_cons.mp based
    exact ih (areBacked_encode backed base (Parameter.coded_of_ofSpelling first)) later bases

end Mangling
