import Mangling.Proofs.Encoding.Form

/-! The forms in which parameters are written expand, over the table, to the full encodings. -/

namespace Mangling

/-- A source name stands for itself at the head of a nested name. -/
theorem insideOf_sourceName (name : Text) : insideOf (sourceName name) = sourceName name := by
  -- A digit is not the mark of a nested name.
  obtain ⟨digit, rest, spelled, isDigit⟩ := sourceName_eq_cons name
  rw [spelled, insideOf]
  intro names same
  exact ne_of_isDigit isDigit (by decide) (List.cons.inj same).1

/-- A beginning of a path that has a name is not empty. -/
theorem take_ne_nil {names : List Text} {depth : Nat} (positive : 1 ≤ depth)
    (bounded : depth ≤ names.length) : names.take depth ≠ [] := by
  apply List.ne_nil_of_length_pos
  rw [List.length_take]
  omega

/-- At the head of a nested name a path stands for its names. -/
theorem insideOf_scopePath {names : List Text} (nonempty : names ≠ []) :
    insideOf (scopePath names) = names.flatMap sourceName := by
  match names with
  | [name] => simpa [scopePath_singleton] using insideOf_sourceName name
  | outer :: inner :: others =>
    -- Two names or more have marks around them, which are taken off again.
    simp [scopePath_cons_cons, nestedName, insideOf, ← List.append_assoc]

/-- What fragments stand for does not change when entries are added. -/
theorem expandFragments_append {entries : List Text} {fragments : List Fragment} {full : Text}
    (expanded : expandFragments entries fragments = some full) (later : List Text) :
    expandFragments (entries ++ later) fragments = some full := by
  have kept : ∀ {index : Nat} {entry : Text}, entries[index]? = some entry →
      (entries ++ later)[index]? = some entry :=
    fun located => @Table.located_extended { entries } _ _ located later
  induction fragments generalizing full with
  | nil => exact expanded
  | cons fragment fragments ih =>
    rw [expandFragments] at expanded
    cases front : fragment.expansion entries with
    | none => simp [front] at expanded
    | some frontText =>
      cases back : expandFragments entries fragments with
      | none => simp [front, back] at expanded
      | some backText =>
        have frontKept : fragment.expansion (entries ++ later) = some frontText := by
          cases fragment with
          | literal text => exact front
          | entry index => exact kept front
          | scope index =>
            obtain ⟨entry, located, inside⟩ := Option.map_eq_some_iff.mp front
            simp [Fragment.expansion, kept located, inside]
        rw [expandFragments, frontKept, ih back]
        simpa [front, back] using expanded

/-- The whole of a form that fits expands to the full encoding. -/
theorem Form.expand_of_fits {entries : List Text} {parameter : Parameter} {form : Form}
    (fits : form.Fits entries parameter) :
    expandFragments entries (form.fragments parameter) = some parameter.encoded := by
  cases form with
  | whole => simp [fragments, expandFragments, Fragment.expansion, Parameter.encoded]
  | reference split index =>
    -- The qualifiers outside and those inside the entry are all of them.
    obtain ⟨_, _, located⟩ := fits
    simp [fragments, expandFragments, Fragment.expansion, located, Parameter.encoded,
      ← List.append_assoc]
  | member depth index =>
    obtain ⟨_, nested, positive, short, located, _⟩ := fits
    have nonempty := take_ne_nil positive (Nat.le_of_lt short)
    -- The names of the entry and those behind it are the whole path.
    have whole : (parameter.scopeNames.take depth).flatMap sourceName ++
        (parameter.scopeNames.drop depth).flatMap sourceName =
          parameter.scopeNames.flatMap sourceName := by
      rw [← List.flatMap_append, List.take_append_drop]
    simp [fragments, expandFragments, Fragment.expansion, located, insideOf_scopePath nonempty,
      Parameter.encoded, Parameter.encodedBase_of_isScoped nested, nestedName, ← whole]

/-- The paths behind a start are as many as there are names behind it. -/
theorem length_pathsBehind (start : Nat) (names : List Text) :
    (pathsBehind start names).length = names.length - start := by
  simp [pathsBehind]

/-- The beginnings of a path of all lengths from one behind a start up to the whole. -/
def prefixesBehind (start : Nat) (names : List Text) : List (List Text) :=
  (List.range' (start + 1) (names.length - start)).map names.take

/-- The paths behind a start are those of the beginnings. -/
theorem pathsBehind_eq (start : Nat) (names : List Text) :
    pathsBehind start names = (prefixesBehind start names).map scopePath := by
  simp [pathsBehind, prefixesBehind]

/-- The first beginning behind a start has the next name, and the others are behind it. -/
theorem prefixesBehind_append_cons (front : List Text) (name : Text) (names : List Text) :
    prefixesBehind front.length (front ++ name :: names) =
      (front ++ [name]) ::
        prefixesBehind (front ++ [name]).length ((front ++ [name]) ++ names) := by
  have more : (front ++ name :: names).length - front.length = names.length + 1 := by simp
  have rest : (front ++ [name] ++ names).length - (front ++ [name]).length = names.length := by
    simp only [List.length_append, List.length_cons, List.length_nil]
    omega
  have split : front ++ name :: names = front ++ [name] ++ names := by simp
  have next : (front ++ [name] ++ names).take (front.length + 1) = front ++ [name] :=
    List.take_left' (by simp)
  rw [prefixesBehind, prefixesBehind, more, rest, List.range'_succ, List.map_cons, split, next]
  simp

/-- The first beginning of all is the outermost name. -/
theorem prefixesBehind_zero_cons (name : Text) (names : List Text) :
    prefixesBehind 0 (name :: names) = [name] :: prefixesBehind 1 (name :: names) :=
  prefixesBehind_append_cons [] name names

/-- The last beginning behind a start short of the whole is the whole. -/
theorem getLast?_prefixesBehind {start : Nat} {names : List Text} (short : start < names.length) :
    (prefixesBehind start names).getLast? = some names := by
  -- The lengths run up to the number of names.
  obtain ⟨more, total⟩ := Nat.exists_eq_add_of_lt short
  have count : names.length - start = more + 1 := by omega
  rw [prefixesBehind, count, List.range'_concat, List.map_append, List.map_singleton,
    List.getLast?_concat, Nat.one_mul, List.take_of_length_le (by omega)]

/-- The forms of a base under its qualifiers are as many as the qualifiers. -/
theorem length_qualifiedForms (qualifiers base : Text) :
    (qualifiedForms qualifiers base).length = qualifiers.length := by
  -- Every qualifier contributes the form in which it stands in front.
  induction qualifiers with
  | nil => rfl
  | cons code codes ih => simp [qualifiedForms, ih]

/-- A form that fits remembers nothing exactly for a parameter that is bare or matched. -/
theorem Form.remembered_eq_nil_iff {entries : List Text} {parameter : Parameter} {form : Form}
    (fits : form.Fits entries parameter) :
    form.remembered parameter = [] ↔ parameter.IsBare ∨ parameter.IsMatched entries := by
  -- What is remembered behind a known depth short of the path is empty for bare parameters only.
  have unbare : ∀ known, (parameter.isScoped = true → known < parameter.scopeNames.length) →
      (parameter.candidates known = [] ↔ parameter.IsBare) := by
    intro known short
    rw [← List.length_eq_zero_iff, Parameter.candidates, List.length_append,
      length_qualifiedForms, Parameter.IsBare]
    by_cases nested : parameter.isScoped = true
    · obtain ⟨other, _⟩ := Parameter.isScoped_iff.mp nested
      have bounded := short nested
      rw [if_pos nested, length_pathsBehind]
      simp only [other, Bool.false_eq_true, false_and, iff_false]
      omega
    · rw [if_neg nested]
      by_cases builtin : parameter.isBuiltin = true
      · simp [builtin]
      · simp [builtin]
  cases form with
  | whole =>
    have start : parameter.isScoped = true → 0 < parameter.scopeNames.length := by
      intro nested
      have long := (Parameter.isScoped_iff.mp nested).2
      omega
    rw [remembered, unbare 0 start]
    rcases fits with bare | ⟨unmatched, _⟩
    · exact ⟨Or.inl, fun _ => bare⟩
    · exact ⟨Or.inl, fun either => either.resolve_right unmatched⟩
  | reference split index =>
    obtain ⟨_, bounded, located⟩ := fits
    simp only [remembered, true_iff]
    exact Or.inr ⟨split, bounded, List.mem_of_getElem? located⟩
  | member depth index =>
    obtain ⟨unmatched, _, _, short, _, _⟩ := fits
    rw [remembered, unbare depth fun _ => short]
    exact ⟨Or.inl, fun either => either.resolve_right unmatched⟩

/-- Encodes parameters one after the other over one growing table. -/
def Table.encodeAll (table : Table) : List Parameter → List Text × Table
  | [] => ([], table)
  | parameter :: parameters =>
    -- The table that one parameter leaves behind is the one that the next one meets.
    let (encoding, grown) := table.encode parameter
    let (encodings, last) := grown.encodeAll parameters
    (encoding :: encodings, last)

/-- The parameters of a run, each with the form that the table of its turn gives to it. -/
def Table.formAll (table : Table) : List Parameter → List (Parameter × Form)
  | [] => []
  | parameter :: parameters =>
    (parameter, table.form parameter) :: (table.encode parameter).2.formAll parameters

/-- A source name has two characters or more, if there is a name. -/
theorem two_le_length_sourceName {name : Text} (nonempty : name ≠ []) :
    2 ≤ (sourceName name).length := by
  have digits := List.length_pos_iff.mpr (decimal_ne_nil name.length)
  have letters := List.length_pos_iff.mpr nonempty
  rw [sourceName, List.length_append]
  omega

/-- What is written for a parameter with a base has two characters or more, unless it is an unqualified
fundamental type. -/
theorem Table.two_le_length_encode (table : Table) {parameter : Parameter}
    (based : parameter.base ≠ []) (covered : ¬parameter.IsBare) :
    2 ≤ (table.encode parameter).1.length := by
  rw [encode_eq]
  cases table.form parameter with
  | whole =>
    simp only [Form.fragments, spellFragments, List.flatMap_cons, List.flatMap_nil,
      Fragment.spelling, List.append_nil, List.length_append, Parameter.encodedBase_eq based]
    by_cases nested : parameter.isScoped = true
    · rw [Parameter.baseType_of_isScoped nested, BaseType.encoding, nestedName, List.length_cons,
        List.length_append, List.length_singleton]
      omega
    · rcases Parameter.baseType_of_not_isScoped nested with ⟨kind, found, named⟩ | ⟨_, named⟩
      · -- A fundamental type has a code, and a qualifier in front of it here.
        have coded : 1 ≤ kind.code.length := by cases kind <;> decide
        have qualified : 1 ≤ parameter.qualifiers.length := by
          rw [Nat.one_le_iff_ne_zero, Ne, List.length_eq_zero_iff]
          exact fun none => covered ⟨by simp [Parameter.isBuiltin, found], none⟩
        rw [named, BaseType.encoding]
        omega
      · have spelled := two_le_length_sourceName based
        rw [named, BaseType.encoding]
        omega
  | reference split index =>
    -- The two marks of the reference are enough.
    simp only [Form.fragments, spellFragments, List.flatMap_cons, List.flatMap_nil,
      Fragment.spelling, List.append_nil, List.length_append, List.length_cons, List.length_nil]
    omega
  | member depth index =>
    simp only [Form.fragments, spellFragments, List.flatMap_cons, List.flatMap_nil,
      Fragment.spelling, List.append_nil, List.length_append, List.length_cons, List.length_nil]
    omega

/-- Encoding adds entries behind those that were there. -/
theorem Table.entries_encode (table : Table) (parameter : Parameter) :
    (table.encode parameter).2.entries =
      table.entries ++ (table.form parameter).remembered parameter := by
  rw [encode_eq, entries_extended]

/-- A run adds entries behind those that were there. -/
theorem Table.entries_encodeAll (table : Table) (parameters : List Parameter) :
    table.entries <+: (table.encodeAll parameters).2.entries := by
  -- Every turn extends what the turn before it left.
  induction parameters generalizing table with
  | nil => exact List.prefix_refl _
  | cons parameter parameters ih =>
    have grown : table.entries <+: (table.encode parameter).2.entries := by
      rw [entries_encode]
      exact List.prefix_append _ _
    exact List.IsPrefix.trans grown (ih _)

/-- Every string of a run is written in the form of its turn. -/
theorem Table.encodeAll_eq (table : Table) (parameters : List Parameter) :
    (table.encodeAll parameters).1 =
      (table.formAll parameters).map fun turn => spellFragments (turn.2.fragments turn.1) := by
  induction parameters generalizing table with
  | nil => rfl
  | cons parameter parameters ih =>
    -- One turn is written in its form, and the rest goes on over the table behind it.
    simp only [encodeAll, formAll, List.map_cons, ih]
    rw [encode_eq]

/-- Over the table at the end of a run every string of the run expands to a full encoding. -/
theorem Table.expand_formAll (table : Table) (parameters : List Parameter) :
    ((table.formAll parameters).map fun turn =>
        expandFragments (table.encodeAll parameters).2.entries (turn.2.fragments turn.1)) =
      parameters.map fun parameter => some parameter.encoded := by
  induction parameters generalizing table with
  | nil => rfl
  | cons parameter parameters ih =>
    -- The form fits the table of its turn, of which the last table is an extension.
    have fits := table.form_fits parameter
    obtain ⟨later, grown⟩ := table.entries_encodeAll (parameter :: parameters)
    have expanded := expandFragments_append (Form.expand_of_fits fits) later
    rw [grown] at expanded
    simp only [formAll, List.map_cons, expanded]
    exact congrArg _ (ih (table.encode parameter).2)

end Mangling
