import Mangling.Encoding.Substitution

/-! What the searches of a substitution table find: entries, splits, and the longest known path. -/

namespace Mangling

/-- A split of qualifiers matches an entry exactly when the rest of them and the base make it. -/
theorem matchingSplit_eq_some_iff {qualifiers base entry : Text} {split : Nat} :
    matchingSplit qualifiers base entry = some split ↔
      split ≤ qualifiers.length ∧ entry = qualifiers.drop split ++ base := by
  rw [matchingSplit, List.find?_range_eq_some]
  constructor
  · rintro ⟨fits, inRange, _⟩
    rw [List.mem_range] at inRange
    exact ⟨by omega, by simpa using fits⟩
  · rintro ⟨bounded, fits⟩
    refine ⟨by simpa using fits, List.mem_range.mpr (by omega), ?_⟩
    -- An earlier split would leave more qualifiers, and so a longer text.
    intro earlier before
    simp only [Bool.not_eq_true', beq_eq_false_iff_ne]
    intro same
    have lengths := congrArg List.length (fits.symm.trans same)
    simp only [List.length_append, List.length_drop] at lengths
    omega

/-- No split of qualifiers matches an entry exactly when none of the possible texts is the entry. -/
theorem matchingSplit_eq_none_iff {qualifiers base entry : Text} :
    matchingSplit qualifiers base entry = none ↔
      ∀ split ≤ qualifiers.length, entry ≠ qualifiers.drop split ++ base := by
  -- A found split and a fitting one are the same thing.
  rw [Option.eq_none_iff_forall_not_mem]
  constructor
  · intro absent split bounded fits
    exact absent split (matchingSplit_eq_some_iff.mpr ⟨bounded, fits⟩)
  · intro absent split found
    obtain ⟨bounded, fits⟩ := matchingSplit_eq_some_iff.mp found
    exact absent split bounded fits

/-- A search without result means that no entry is the base under some of its qualifiers. -/
theorem Table.find_eq_none_iff {table : Table} {qualifiers base : Text} :
    table.find qualifiers base = none ↔
      ∀ split ≤ qualifiers.length, qualifiers.drop split ++ base ∉ table.entries := by
  rw [find, List.findSome?_eq_none_iff]
  simp only [Option.map_eq_none_iff, matchingSplit_eq_none_iff]
  constructor
  · -- An entry stands at some index, where the search would have met it.
    intro absent split bounded member
    obtain ⟨index, found⟩ := List.getElem?_of_mem member
    exact absent (_, index) (List.mem_zipIdx_iff_getElem?.mpr found) split bounded rfl
  · intro absent pair member split bounded same
    have found := List.mem_zipIdx_iff_getElem?.mp member
    exact absent split bounded (same ▸ List.mem_of_getElem? found)

/-- What a search finds is an entry that is the base under the qualifiers behind the split. -/
theorem Table.find_eq_some {table : Table} {qualifiers base : Text} {index split : Nat}
    (found : table.find qualifiers base = some (index, split)) :
    split ≤ qualifiers.length ∧ table.entries[index]? = some (qualifiers.drop split ++ base) := by
  -- The entry that decides the search stands at the index that is reported.
  obtain ⟨⟨entry, place⟩, member, decided⟩ := List.exists_of_findSome?_eq_some found
  obtain ⟨least, fits, same⟩ := Option.map_eq_some_iff.mp decided
  simp only [Prod.mk.injEq] at same
  obtain ⟨rfl, rfl⟩ := same
  obtain ⟨bounded, spelled⟩ := matchingSplit_eq_some_iff.mp fits
  have located := List.mem_zipIdx_iff_getElem?.mp member
  exact ⟨bounded, spelled ▸ located⟩

/-- In front of what a search finds no entry is the base under some of its qualifiers. -/
theorem Table.find_least {table : Table} {qualifiers base : Text} {index split : Nat}
    (found : table.find qualifiers base = some (index, split)) :
    ∀ earlier < index, ∀ other ≤ qualifiers.length,
      table.entries[earlier]? ≠ some (qualifiers.drop other ++ base) := by
  obtain ⟨front, ⟨entry, place⟩, back, divided, decided, missed⟩ :=
    List.findSome?_eq_some_iff.mp found
  obtain ⟨least, -, same⟩ := Option.map_eq_some_iff.mp decided
  simp only [Prod.mk.injEq] at same
  obtain ⟨rfl, -⟩ := same
  -- The entries in front of the one that decides are those with smaller indices.
  obtain ⟨before, after, entries, rfl, rest⟩ := List.zipIdx_eq_append_iff.mp divided
  have first : place = before.length := by
    cases after with
    | nil => simp at rest
    | cons other others =>
      rw [List.zipIdx_cons, List.cons.injEq, Prod.mk.injEq] at rest
      omega
  intro earlier bounded other within located
  rw [entries, List.getElem?_append_left (by omega)] at located
  have unmatched := missed (_, earlier) (List.mem_zipIdx_iff_getElem?.mpr located)
  rw [Option.map_eq_none_iff, matchingSplit_eq_none_iff] at unmatched
  exact unmatched other within rfl

/-- An entry of a table is the base under the qualifiers that a split leaves. -/
def Table.IsMatch (table : Table) (qualifiers base : Text) (index split : Nat) : Prop :=
  split ≤ qualifiers.length ∧ table.entries[index]? = some (qualifiers.drop split ++ base)

/-- No two splits of the same qualifiers match one entry. -/
theorem Table.IsMatch.split_unique {table : Table} {qualifiers base : Text} {index split other : Nat}
    (fits : table.IsMatch qualifiers base index split)
    (also : table.IsMatch qualifiers base index other) : other = split := by
  obtain ⟨bounded, located⟩ := fits
  obtain ⟨within, found⟩ := also
  -- The length of the entry tells how many qualifiers are left.
  have lengths := congrArg List.length (Option.some.inj (located.symm.trans found))
  simp only [List.length_append, List.length_drop] at lengths
  omega

/-- A search finds the first entry that is the base under some of its qualifiers, and the one split that
makes it. -/
theorem Table.find_eq_some_iff {table : Table} {qualifiers base : Text} {index split : Nat} :
    table.find qualifiers base = some (index, split) ↔
      split ≤ qualifiers.length ∧ table.entries[index]? = some (qualifiers.drop split ++ base) ∧
        ∀ earlier < index, ∀ other ≤ qualifiers.length,
          table.entries[earlier]? ≠ some (qualifiers.drop other ++ base) := by
  constructor
  · intro found
    obtain ⟨bounded, located⟩ := find_eq_some found
    exact ⟨bounded, located, find_least found⟩
  · rintro ⟨bounded, located, least⟩
    cases searched : table.find qualifiers base with
    | none => exact absurd (List.mem_of_getElem? located) (find_eq_none_iff.mp searched split bounded)
    | some place =>
      obtain ⟨first, other⟩ := place
      obtain ⟨within, found⟩ := find_eq_some searched
      -- Neither of the two indices can be smaller than the other.
      have same : first = index := by
        rcases Nat.lt_trichotomy first index with before | same | behind
        · exact absurd found (least first before other within)
        · exact same
        · exact absurd located (find_least searched index behind split bounded)
      subst same
      have splits : other = split := IsMatch.split_unique ⟨bounded, located⟩ ⟨within, found⟩
      rw [splits]

/-- A look-up that succeeds tells the place of the encoding. -/
theorem Table.lookup_eq_some {table : Table} {encoding : Text} {index : Nat}
    (found : table.lookup encoding = some index) : table.entries[index]? = some encoding := by
  obtain ⟨bounded, same, _⟩ := List.idxOf?_eq_some_iff.mp found
  rw [List.getElem?_eq_getElem bounded, same]

/-- A look-up tells the first place of the encoding. -/
theorem Table.lookup_least {table : Table} {encoding : Text} {index : Nat}
    (found : table.lookup encoding = some index) :
    ∀ earlier < index, table.entries[earlier]? ≠ some encoding := by
  obtain ⟨bounded, _, least⟩ := List.idxOf?_eq_some_iff.mp found
  intro earlier before located
  rw [List.getElem?_eq_getElem (Nat.lt_trans before bounded), Option.some.injEq] at located
  exact least earlier before located

/-- A look-up fails exactly for what is no entry. -/
theorem Table.lookup_eq_none_iff {table : Table} {encoding : Text} :
    table.lookup encoding = none ↔ encoding ∉ table.entries :=
  List.idxOf?_eq_none_iff

/-- The known depth belongs to an entry, and no deeper path within the limit is known. -/
theorem Table.knownDepth_eq_some {table : Table} {names : List Text} {limit depth index : Nat}
    (found : table.knownDepth names limit = some (depth, index)) :
    1 ≤ depth ∧ depth ≤ limit ∧ table.entries[index]? = some (scopePath (names.take depth)) ∧
      ∀ deeper, depth < deeper → deeper ≤ limit →
        scopePath (names.take deeper) ∉ table.entries := by
  -- The limit shrinks as long as the path of its own length is unknown.
  induction limit with
  | zero => simp [knownDepth] at found
  | succ limit ih =>
    rw [knownDepth] at found
    cases looked : table.lookup (scopePath (names.take (limit + 1))) with
    | some place =>
      simp only [looked, Option.some.injEq, Prod.mk.injEq] at found
      obtain ⟨rfl, rfl⟩ := found
      refine ⟨by omega, by omega, lookup_eq_some looked, ?_⟩
      intro deeper beyond within
      omega
    | none =>
      simp only [looked] at found
      obtain ⟨positive, bounded, located, unknown⟩ := ih found
      refine ⟨positive, by omega, located, ?_⟩
      intro deeper beyond within
      by_cases last : deeper = limit + 1
      · subst last
        exact lookup_eq_none_iff.mp looked
      · exact unknown deeper beyond (by omega)

/-- Without a known depth no path within the limit is an entry. -/
theorem Table.knownDepth_eq_none {table : Table} {names : List Text} {limit : Nat}
    (missing : table.knownDepth names limit = none) :
    ∀ depth, 1 ≤ depth → depth ≤ limit → scopePath (names.take depth) ∉ table.entries := by
  -- Every length was looked up in turn.
  induction limit with
  | zero =>
    intro depth positive bounded
    omega
  | succ limit ih =>
    rw [knownDepth] at missing
    cases looked : table.lookup (scopePath (names.take (limit + 1))) with
    | some place => simp [looked] at missing
    | none =>
      simp only [looked] at missing
      intro depth positive bounded
      by_cases last : depth = limit + 1
      · subst last
        exact lookup_eq_none_iff.mp looked
      · exact ih missing depth positive (by omega)

/-- An entry keeps its place when entries are added. -/
theorem Table.located_extended {table : Table} {index : Nat} {entry : Text}
    (located : table.entries[index]? = some entry) (added : List Text) :
    (table.extended added).entries[index]? = some entry := by
  obtain ⟨bounded, _⟩ := List.getElem?_eq_some_iff.mp located
  rw [entries_extended, List.getElem?_append_left bounded, located]

/-- What has been found once is found again when entries are added. -/
theorem Table.find_extended {table : Table} {qualifiers base : Text} {place : Nat × Nat}
    (found : table.find qualifiers base = some place) (added : List Text) :
    (table.extended added).find qualifiers base = some place := by
  obtain ⟨index, split⟩ := place
  obtain ⟨bounded, located, least⟩ := find_eq_some_iff.mp found
  refine find_eq_some_iff.mpr ⟨bounded, located_extended located added, ?_⟩
  -- In front of the entry that was found nothing has changed.
  intro earlier before other within matched
  obtain ⟨inside, _⟩ := List.getElem?_eq_some_iff.mp located
  rw [entries_extended, List.getElem?_append_left (by omega)] at matched
  exact least earlier before other within matched

/-- A search finds nothing exactly when no entry is the base under any of the qualifiers that a split
can leave. It finds a place exactly when the entry there matches, under that split only, and no entry in
front of it does; and it finds the same place however many entries are added. -/
theorem Table.find_least_match (table : Table) (qualifiers base : Text) :
    (table.find qualifiers base = none ↔
      ∀ split ≤ qualifiers.length, qualifiers.drop split ++ base ∉ table.entries) ∧
    (∀ index split, table.find qualifiers base = some (index, split) ↔
      table.IsMatch qualifiers base index split ∧
        (∀ other, table.IsMatch qualifiers base index other → other = split) ∧
        ∀ place other, table.IsMatch qualifiers base place other → index ≤ place) ∧
    ∀ place, table.find qualifiers base = some place →
      ∀ added, (table.extended added).find qualifiers base = some place := by
  refine ⟨find_eq_none_iff, ?_, fun place found added => find_extended found added⟩
  intro index split
  rw [find_eq_some_iff]
  constructor
  · rintro ⟨bounded, located, least⟩
    have fits : table.IsMatch qualifiers base index split := ⟨bounded, located⟩
    refine ⟨fits, fun other also => fits.split_unique also, ?_⟩
    intro place other also
    by_cases before : place < index
    · exact absurd also.2 (least place before other also.1)
    · omega
  · rintro ⟨⟨bounded, located⟩, _, least⟩
    refine ⟨bounded, located, ?_⟩
    -- A match in front of the least one would have to stand behind it.
    intro earlier before other within found
    have behind := least earlier other ⟨within, found⟩
    omega

/-- An early entry that matches in part is found before a later one that matches as a whole, also when
entries are added. -/
theorem Table.find_least_match_partial :
    Table.find { entries := ["3Foo".toList, "P3Foo".toList] } "P".toList "3Foo".toList =
        some (0, 1) ∧
      ∀ added, (Table.extended { entries := ["3Foo".toList, "P3Foo".toList] } added).find
        "P".toList "3Foo".toList = some (0, 1) :=
  ⟨by decide, (find_least_match _ _ _).2.2 (0, 1) (by decide)⟩

end Mangling
