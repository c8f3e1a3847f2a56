import Mangling.Proofs.Symbol.WrittenType

/-! A reader that numbers candidates as types are completed stays in step with the table of the
writer exactly as long as no qualifier is left outside a back reference. -/

namespace Mangling

/-- The digits of a back reference among candidates count in base thirty-six. -/
def candidateNumber (digits : Text) : Option Nat :=
  -- The digits are those of a single-digit reference, and any number of them may stand.
  digits.foldlM (fun value digit => (referenceDigit digit).map (value * 36 + ·)) 0

/-- The nested names made of a head and more and more of the names behind it. -/
def memberPaths (inside : Text) : List Text → List Text
  | [] => []
  | name :: names =>
    -- Each path is the head of the next one.
    ('N' :: (inside ++ sourceName name ++ ['E'])) :: memberPaths (inside ++ sourceName name) names

/-- Completes a nested name: every path behind the head is a candidate, and the last is the type. -/
def completeMembers (inside : Text) (names : List Text) (candidates : List Text) :
    Option (Text × List Text) :=
  -- A head without a name behind it is no nested name.
  let paths := memberPaths inside names
  paths.getLast?.map fun path => (path, candidates ++ paths)

/-- Completes a base: its full encoding, with the candidates after it. -/
def WrittenBase.complete (candidates : List Text) : WrittenBase → Option (Text × List Text)
  -- Neither a fundamental type nor a back reference is a candidate.
  | .full (.builtin kind) => some (kind.code, candidates)
  | .reference index => candidates[index]?.map fun entry => (entry, candidates)
  -- A class is a candidate, and so is every scope on the path of a nested name.
  | .full (.source name) => some (sourceName name, candidates ++ [sourceName name])
  | .full (.nested []) => none
  | .full (.nested (name :: names)) =>
    completeMembers (sourceName name) names (candidates ++ [sourceName name])
  | .member index names =>
    match candidates[index]? with
    | none => none
    | some entry => completeMembers (insideOf entry) names candidates

/-- Completes the qualifiers around a type: each makes one more candidate, the innermost first. -/
def completeQualifiers : Text → Text × List Text → Text × List Text
  | [], done => done
  | code :: codes, done =>
    -- What is wrapped is complete before what wraps it.
    let (target, candidates) := completeQualifiers codes done
    (code :: target, candidates ++ [code :: target])

/-- Reads a type by the numbering of candidates: its full encoding, the candidates after it, and the
rest of the text. -/
def readFull (candidates : List Text) (text : Text) : Option (Text × List Text × Text) :=
  match readWritten candidateNumber text with
  | none => none
  | some (written, rest) =>
    -- A reference to a candidate that is not there is refused.
    (written.base.complete candidates).map fun done =>
      let (full, candidates) := completeQualifiers written.qualifiers done
      (full, candidates, rest)

/-- Reads so many types one behind the other. -/
def readFulls : Nat → List Text → Text → Option (List Text × List Text × Text)
  | 0, candidates, text => some ([], candidates, text)
  | count + 1, candidates, text =>
    match readFull candidates text with
    | none => none
    | some (full, candidates, rest) =>
      -- The candidates of one type serve the next one.
      (readFulls count candidates rest).map fun (fulls, candidates, rest) =>
        (full :: fulls, candidates, rest)

/-- The candidates that a writer passes over when it leaves qualifiers outside a reference. -/
def Form.overlooked (parameter : Parameter) : Form → List Text
  | .whole => []
  | .reference split _ =>
    qualifiedForms (parameter.qualifiers.take split)
      (parameter.qualifiers.drop split ++ parameter.encodedBase)
  | .member _ _ => []

/-- A reader is in step with a run when, after each of its strings, it has read the full encodings
of the parameters so far and its candidates are the entries of the table. -/
def Table.InStep (table : Table) (parameters : List Parameter) : Prop :=
  -- The reader sees the whole run from the start, and stops after each string in turn.
  ∀ count ≤ parameters.length,
    readFulls count table.entries (table.encodeAll parameters).1.flatten =
      some ((parameters.take count).map Parameter.encoded,
        (table.encodeAll (parameters.take count)).2.entries,
        ((table.encodeAll parameters).1.drop count).flatten)

/-- Up to ten a decimal numeral is a digit in base thirty-six. -/
theorem isNumbered_candidateNumber {index : Nat} (near : index ≤ 10) :
    IsNumbered candidateNumber index := by
  have digits : ∀ value < 10, candidateNumber (decimal value) = some value := by decide
  by_cases first : index = 0
  · exact Or.inl first
  · exact Or.inr (digits (index - 1) (by omega))

/-- A path gets longer by one name as a nested name. -/
theorem scopePath_concat {front : List Text} (nonempty : front ≠ []) (name : Text) :
    scopePath (front ++ [name]) = 'N' :: (front.flatMap sourceName ++ sourceName name ++ ['E']) := by
  -- The path has two names or more.
  match front with
  | [outer] => simp [scopePath_cons_cons, nestedName]
  | outer :: inner :: others => simp [scopePath_cons_cons, nestedName]

/-- The paths behind a known one are the nested names made from it. -/
theorem memberPaths_eq {front : List Text} (nonempty : front ≠ []) (names : List Text) :
    memberPaths (front.flatMap sourceName) names = pathsBehind front.length (front ++ names) := by
  -- The known path grows by the name in front of the others.
  induction names generalizing front with
  | nil => simp [memberPaths, pathsBehind]
  | cons name names ih =>
    have grown := ih (show front ++ [name] ≠ [] by simp)
    have longer : (front ++ [name]).flatMap sourceName =
        front.flatMap sourceName ++ sourceName name := by simp
    rw [longer] at grown
    rw [memberPaths, grown, pathsBehind_eq, pathsBehind_eq, prefixesBehind_append_cons, List.map_cons,
      scopePath_concat nonempty]

/-- Completing qualifiers puts them in front and makes a candidate of each form. -/
theorem completeQualifiers_eq (qualifiers full : Text) (candidates : List Text) :
    completeQualifiers qualifiers (full, candidates) =
      (qualifiers ++ full, candidates ++ qualifiedForms qualifiers full) := by
  induction qualifiers with
  | nil => simp [completeQualifiers, qualifiedForms]
  | cons code codes ih => simp [completeQualifiers, ih, qualifiedForms]

/-- A nested name completed behind a known path gives the whole path, and its candidates are the
paths behind the known one. -/
theorem completeMembers_eq {names : List Text} {known : Nat} (positive : 1 ≤ known)
    (short : known < names.length) (candidates : List Text) :
    completeMembers ((names.take known).flatMap sourceName) (names.drop known) candidates =
      some (scopePath names, candidates ++ pathsBehind known names) := by
  have paths := memberPaths_eq (take_ne_nil positive (Nat.le_of_lt short)) (names.drop known)
  rw [List.take_append_drop, List.length_take, Nat.min_eq_left (by omega)] at paths
  simp [completeMembers, paths, pathsBehind_eq, getLast?_prefixesBehind short]

/-- The first of all paths is the outermost name. -/
theorem pathsBehind_zero_cons (name : Text) (names : List Text) :
    pathsBehind 0 (name :: names) = sourceName name :: pathsBehind 1 (name :: names) := by
  rw [pathsBehind_eq, prefixesBehind_zero_cons, List.map_cons, ← pathsBehind_eq,
    scopePath_singleton]

/-- A base written in full is completed to itself, and its candidates are what a writer remembers of
it. -/
theorem complete_baseType {parameter : Parameter} (based : parameter.base ≠ [])
    (candidates : List Text) :
    (WrittenBase.full parameter.baseType).complete candidates =
      some (parameter.encodedBase, candidates ++
        (if parameter.isScoped then pathsBehind 0 parameter.scopeNames
          else if parameter.isBuiltin then []
          else [parameter.encodedBase])) := by
  rw [Parameter.encodedBase_eq based]
  by_cases nested : parameter.isScoped = true
  · rw [if_pos nested, Parameter.baseType_of_isScoped nested]
    -- The first name is a candidate by itself, and the paths behind it follow.
    have long := (Parameter.isScoped_iff.mp nested).2
    obtain ⟨outer, inner, others, names⟩ := exists_outer_inner long
    rw [names] at long ⊢
    have members := completeMembers_eq (show 1 ≤ 1 by omega) long
      (candidates ++ [sourceName outer])
    simp only [List.take_succ_cons, List.take_zero, List.flatMap_cons, List.flatMap_nil,
      List.append_nil, List.drop_succ_cons, List.drop_zero] at members
    rw [WrittenBase.complete, members, pathsBehind_zero_cons, List.append_assoc]
    rfl
  · rw [if_neg nested]
    rcases Parameter.baseType_of_not_isScoped nested with ⟨kind, found, named⟩ | ⟨other, named⟩
    · simp [Parameter.isBuiltin, found, named, WrittenBase.complete, BaseType.encoding]
    · simp [other, named, WrittenBase.complete, BaseType.encoding]

/-- A type written in a form that fits is completed to the full encoding. Its candidates are what the
writer remembers and what it passes over. -/
theorem Form.complete_written {entries : List Text} {parameter : Parameter} {form : Form}
    (fits : form.Fits entries parameter) (based : parameter.base ≠ []) :
    ((form.written parameter).base.complete entries).map
        (completeQualifiers (form.written parameter).qualifiers) =
      some (parameter.encoded,
        entries ++ form.remembered parameter ++ form.overlooked parameter) := by
  cases form with
  | whole =>
    simp [written, complete_baseType based, completeQualifiers_eq, Parameter.encoded, remembered,
      overlooked, Parameter.candidates]
  | reference split index =>
    -- The qualifiers inside the entry are complete already, and those outside come on top.
    obtain ⟨_, _, located⟩ := fits
    simp [written, WrittenBase.complete, located, completeQualifiers_eq, Parameter.encoded,
      remembered, overlooked, ← List.append_assoc]
  | member depth index =>
    obtain ⟨_, nested, positive, short, located, _⟩ := fits
    have nonempty := take_ne_nil positive (Nat.le_of_lt short)
    have whole : scopePath parameter.scopeNames = parameter.encodedBase := by
      obtain ⟨outer, inner, others, names⟩ :=
        exists_outer_inner (Parameter.isScoped_iff.mp nested).2
      rw [Parameter.encodedBase_of_isScoped nested, names, scopePath_cons_cons]
    simp [written, WrittenBase.complete, located, insideOf_scopePath nonempty,
      completeMembers_eq positive short, whole, completeQualifiers_eq, Parameter.encoded,
      remembered, overlooked, Parameter.candidates, nested]

/-- As many candidates are passed over as qualifiers are left outside. -/
theorem Form.length_overlooked {entries : List Text} {parameter : Parameter} {form : Form}
    (fits : form.Fits entries parameter) :
    (form.overlooked parameter).length = form.outside := by
  cases form with
  | whole => rfl
  | reference split index =>
    rw [overlooked, length_qualifiedForms, List.length_take, Nat.min_eq_left fits.2.1, outside]
  | member depth index => rfl

/-- The reader reads what one turn of the writer wrote: the full encoding. Its candidates are then
those of the writer, with the ones that the writer passed over behind them. -/
theorem readFull_encode {table : Table} {parameter : Parameter} (readable : parameter.IsReadable)
    (near : ∀ index ∈ (table.form parameter).index?, index ≤ 10) (rest : Text) :
    readFull table.entries ((table.encode parameter).1 ++ rest) =
      some (parameter.encoded,
        (table.encode parameter).2.entries ++ (table.form parameter).overlooked parameter,
        rest) := by
  have fits := table.form_fits parameter
  have indexed : ((table.form parameter).written parameter).base.index? =
      (table.form parameter).index? := by
    cases table.form parameter <;> rfl
  have numbered : ∀ index ∈ ((table.form parameter).written parameter).base.index?,
      IsNumbered candidateNumber index :=
    fun index found => isNumbered_candidateNumber (near index (indexed ▸ found))
  have read := readWritten_spell (Form.isReadable_written fits readable) numbered rest
  obtain ⟨⟨full, candidates⟩, completed, same⟩ :=
    Option.map_eq_some_iff.mp (Form.complete_written fits readable.based)
  rw [Table.entries_encode, Table.encode_eq, Form.fragments_eq readable.based, readFull, read]
  simp [completed, same]

/-- A run is in step exactly when its first turn leaves no qualifier outside and the run behind it is
in step. -/
theorem Table.inStep_cons_iff {table : Table} {parameter : Parameter} {parameters : List Parameter}
    (readable : parameter.IsReadable)
    (near : ∀ index ∈ (table.form parameter).index?, index ≤ 10) :
    table.InStep (parameter :: parameters) ↔
      (table.form parameter).outside = 0 ∧ (table.encode parameter).2.InStep parameters := by
  have read := readFull_encode readable near
  have many := Form.length_overlooked (table.form_fits parameter)
  constructor
  · intro inStep
    -- After the first string the candidates can only agree if none was passed over.
    have first := inStep 1 (by simp)
    simp only [readFulls, encodeAll, List.flatten_cons, read, Option.map_some, List.take_succ_cons,
      List.take_zero, List.map_cons, List.map_nil, Option.some.injEq, Prod.mk.injEq,
      List.append_right_eq_self] at first
    have none : (table.form parameter).overlooked parameter = [] := first.2.1
    refine ⟨by rw [← many, none, List.length_nil], ?_⟩
    intro count bounded
    have later := inStep (count + 1) (by simpa using bounded)
    simp only [readFulls, encodeAll, List.flatten_cons, read, none, List.append_nil] at later
    obtain ⟨⟨fulls, candidates, rest⟩, behind, same⟩ := Option.map_eq_some_iff.mp later
    rw [behind]
    simpa [encodeAll] using same
  · rintro ⟨inside, inStep⟩ count bounded
    have none : (table.form parameter).overlooked parameter = [] :=
      List.length_eq_zero_iff.mp (many.trans inside)
    cases count with
    | zero => simp [readFulls, encodeAll]
    | succ count =>
      have behind := inStep count (by simpa using bounded)
      simp only [readFulls, encodeAll, List.flatten_cons, read, none, List.append_nil, behind,
        Option.map_some, List.take_succ_cons, List.map_cons, List.drop_succ_cons]

/-- As long as names begin with no digit and references go no further than to the eleventh entry, the
reader is in step exactly when no turn leaves a qualifier outside its reference. -/
theorem Table.inStep_iff_outside (table : Table) (parameters : List Parameter)
    (spelled : ∀ parameter ∈ parameters, Parameter.ofSpelling parameter.spelling = .ok parameter)
    (based : ∀ parameter ∈ parameters, parameter.base ≠ [])
    (named : ∀ parameter ∈ parameters, parameter.isBuiltin = false →
      ∀ piece ∈ scopePieces parameter.base, startsWithDigit piece = false)
    (near : ∀ turn ∈ table.formAll parameters, ∀ index ∈ turn.2.index?, index ≤ 10) :
    table.InStep parameters ↔ ∀ turn ∈ table.formAll parameters, turn.2.outside = 0 := by
  -- Each turn is in step by itself, over the table that the turns before it left.
  induction parameters generalizing table with
  | nil =>
    simp only [formAll, List.not_mem_nil, false_implies, implies_true, iff_true]
    intro count bounded
    have empty : count = 0 := by simpa using bounded
    simp [empty, readFulls, encodeAll]
  | cons parameter parameters ih =>
    have readable : parameter.IsReadable :=
      { based := based parameter (List.mem_cons_self ..)
        coded := Parameter.coded_of_ofSpelling (spelled parameter (List.mem_cons_self ..))
        named := named parameter (List.mem_cons_self ..) }
    have later := ih (table.encode parameter).2
      (fun other member => spelled other (List.mem_cons_of_mem _ member))
      (fun other member => based other (List.mem_cons_of_mem _ member))
      (fun other member => named other (List.mem_cons_of_mem _ member))
      (fun turn member => near turn (List.mem_cons_of_mem _ member))
    rw [inStep_cons_iff readable (near _ (List.mem_cons_self ..)), later, formAll]
    simp

/-- References to whole entries and to heads of nested names keep a reader in step. -/
theorem Table.inStep_repeated_scopes :
    ({} : Table).InStep (["char*", "a::B", "a::C*", "char*", "Foo", "a::B", "a::b::D"].map
      fun spelling => Parameter.spelled spelling.toList) := by
  apply (inStep_iff_outside {} _ ?_ ?_ ?_ ?_).mpr
  · decide +kernel
  · exact List.forall_mem_map.mpr fun spelling _ => Parameter.ofSpelling_eq spelling.toList
  · decide +kernel
  · decide +kernel
  · decide +kernel

/-- A reader falls out of step where a pointer stands in front of a reference, where a reference is
written with two digits, and where a name begins with a digit. -/
theorem Table.not_inStep_partial_match :
    (¬({} : Table).InStep (["char*", "char**"].map fun spelling =>
        Parameter.spelled spelling.toList)) ∧
      (¬({} : Table).InStep (("ABCDEFGHIJKLL".toList).map fun letter =>
        Parameter.spelled [letter])) ∧
      ¬({} : Table).InStep [Parameter.spelled "1a".toList] := by
  refine ⟨fun inStep => ?_, fun inStep => ?_, fun inStep => ?_⟩
  · exact absurd (inStep 2 (by decide)) (by decide +kernel)
  · exact absurd (inStep 13 (by decide)) (by decide +kernel)
  · exact absurd (inStep 1 (by decide)) (by decide +kernel)

end Mangling
