import Mangling.Text.Erase

/-! What erasing does to the parts of a text: what it keeps, and where it works on them one by one. -/

namespace Mangling

/-- A pattern occurs in the texts that hold it in one piece. -/
theorem occursIn_iff {pattern text : Text} : occursIn pattern text = true ↔ pattern <:+: text := by
  induction text with
  | nil => simp [occursIn]
  | cons char rest ih => simp [occursIn, ih, List.infix_cons_iff]

/-- A character that starts no occurrence stays in a pass. -/
theorem eraseOnce_of_not_front {pattern : Text} {char : Char} {rest : Text}
    (apart : ¬pattern <+: char :: rest) :
    eraseOnce pattern (char :: rest) = char :: eraseOnce pattern rest :=
  eraseOnce_cons (by simpa [← List.isPrefixOf_iff_prefix] using apart)

/-- A pass goes on behind an occurrence that it meets, or behind a character that starts none. -/
@[elab_as_elim]
theorem passInduction {pattern : Text} (nonempty : pattern ≠ []) {motive : Text → Prop}
    (nil : motive [])
    (met : ∀ rest, motive rest → motive (pattern ++ rest))
    (kept : ∀ char rest, ¬pattern <+: char :: rest → motive rest → motive (char :: rest))
    (text : Text) : motive text := by
  -- An occurrence is passed over whole, so the text shrinks by more than one character.
  induction length : text.length using Nat.strongRecOn generalizing text with
  | ind size ih =>
    subst length
    cases text with
    | nil => exact nil
    | cons char rest =>
      by_cases front : pattern <+: char :: rest
      · obtain ⟨behind, split⟩ := front
        have positive := List.length_pos_iff.mpr nonempty
        have lengths := congrArg List.length split
        rw [List.length_append] at lengths
        rw [← split]
        exact met behind (ih behind.length (by omega) behind rfl)
      · exact kept char rest front (ih rest.length (by simp) rest rfl)

/-- What every pass preserves is preserved by erasing fully. -/
theorem eraseFully_of_eraseOnce {pattern : Text} {motive : Text → Prop}
    (step : ∀ text, motive text → motive (eraseOnce pattern text)) {text : Text}
    (start : motive text) : motive (eraseFully pattern text) := by
  have rounds : ∀ (count : Nat) (text : Text), motive text →
      motive (eraseRounds pattern count text) := by
    intro count
    induction count with
    | zero => exact fun text start => start
    | succ count ih =>
      intro text start
      rw [eraseRounds]
      split
      · exact ih _ (step text start)
      · exact start
  rw [eraseFully]
  split
  · exact start
  · exact rounds _ text start

/-- Erasing leaves a part of a text. -/
theorem eraseFully_sublist (pattern text : Text) : (eraseFully pattern text).Sublist text := by
  by_cases empty : pattern = []
  · simp [eraseFully, empty]
  · refine eraseFully_of_eraseOnce (motive := fun left => left.Sublist text)
      (fun left part => List.Sublist.trans ?_ part) (List.Sublist.refl text)
    clear part
    induction left using passInduction empty with
    | nil => exact List.Sublist.refl _
    | met rest ih =>
      rw [eraseOnce_pattern empty]
      exact ih.trans (List.sublist_append_right _ _)
    | kept char rest apart ih =>
      rw [eraseOnce_of_not_front apart]
      exact ih.cons_cons char

/-- Erasing keeps every character that is not in the pattern. -/
theorem mem_eraseFully {pattern : Text} {char : Char} (other : char ∉ pattern) {text : Text}
    (member : char ∈ text) : char ∈ eraseFully pattern text := by
  by_cases empty : pattern = []
  · simpa [eraseFully, empty] using member
  · refine eraseFully_of_eraseOnce (motive := (char ∈ ·)) (fun left inside => ?_) member
    induction left using passInduction empty with
    | nil => exact inside
    | met rest ih =>
      rw [eraseOnce_pattern empty]
      exact ih ((List.mem_append.mp inside).resolve_left other)
    | kept first rest apart ih =>
      rw [eraseOnce_of_not_front apart]
      exact List.mem_cons.mpr ((List.mem_cons.mp inside).imp_right ih)

/-- Erasing keeps what is read from a text when nothing is read from the pattern. -/
theorem filterMap_eraseFully {pattern : Text} {read : Char → Option Char}
    (unread : ∀ char ∈ pattern, read char = none) (text : Text) :
    (eraseFully pattern text).filterMap read = text.filterMap read := by
  by_cases empty : pattern = []
  · simp [eraseFully, empty]
  · refine eraseFully_of_eraseOnce (motive := fun left => left.filterMap read = text.filterMap read)
      (fun left same => ?_) rfl
    rw [← same]
    clear same
    induction left using passInduction empty with
    | nil => rfl
    | met rest ih =>
      have passed : pattern.filterMap read = [] := List.filterMap_eq_nil_iff.mpr unread
      rw [eraseOnce_pattern empty, ih, List.filterMap_append, passed, List.nil_append]
    | kept char rest apart ih =>
      rw [eraseOnce_of_not_front apart, List.filterMap_cons, List.filterMap_cons, ih]

/-- Erasing keeps the number of a character that is not in the pattern. -/
theorem count_eraseFully {pattern : Text} {char : Char} (other : char ∉ pattern) (text : Text) :
    (eraseFully pattern text).count char = text.count char := by
  -- The character is read as itself, and every other one is passed over.
  have unread : ∀ first ∈ pattern, Option.guard (· == char) first = none := by
    intro first member
    simpa [Option.guard] using ne_of_mem_of_not_mem member other
  have kept := filterMap_eraseFully unread text
  rw [List.filterMap_eq_filter] at kept
  rw [List.count_eq_length_filter, List.count_eq_length_filter, kept]

/-- A pass over a text without the pattern changes nothing. -/
theorem eraseOnce_of_not_occurs {pattern text : Text} (absent : ¬pattern <:+: text) :
    eraseOnce pattern text = text := by
  induction text with
  | nil => rfl
  | cons char rest ih =>
    rw [List.infix_cons_iff, not_or] at absent
    rw [eraseOnce_of_not_front absent.1, ih absent.2]

/-- Erasing fully from a text without the pattern changes nothing. -/
theorem eraseFully_of_not_occurs {pattern text : Text} (absent : ¬pattern <:+: text) :
    eraseFully pattern text = text :=
  eraseFully_of_absent (by simpa [← occursIn_iff] using absent)

/-- One pass ahead makes no difference to erasing fully. -/
theorem eraseFully_eraseOnce {pattern : Text} (nonempty : pattern ≠ []) (text : Text) :
    eraseFully pattern (eraseOnce pattern text) = eraseFully pattern text := by
  by_cases occurs : pattern <:+: text
  · exact (eraseFully_of_occurs nonempty (occursIn_iff.mpr occurs)).symm
  · rw [eraseOnce_of_not_occurs occurs]

/-- Nothing is left of nothing. -/
theorem eraseFully_nil (pattern : Text) : eraseFully pattern [] = [] :=
  List.sublist_nil.mp (eraseFully_sublist pattern [])

/-- A pass over the pattern itself leaves nothing. -/
theorem eraseOnce_self {pattern : Text} (nonempty : pattern ≠ []) :
    eraseOnce pattern pattern = [] := by
  simpa [eraseOnce, erasePass] using eraseOnce_pattern nonempty []

/-- Erasing a pattern from itself leaves nothing. -/
theorem eraseFully_self (pattern : Text) : eraseFully pattern pattern = [] := by
  by_cases empty : pattern = []
  · simp [eraseFully, empty]
  · rw [← eraseFully_eraseOnce empty, eraseOnce_self empty, eraseFully_nil]

/-- Erasing shortens a text in which the pattern occurs. -/
theorem length_eraseFully_lt {pattern text : Text} (nonempty : pattern ≠ [])
    (occurs : pattern <:+: text) : (eraseFully pattern text).length < text.length := by
  have shorter := eraseOnce_length_lt nonempty (occursIn_iff.mpr occurs)
  rw [← eraseFully_eraseOnce nonempty]
  refine eraseFully_of_eraseOnce (motive := fun left => left.length < text.length)
    (fun left bounded => ?_) shorter
  exact Nat.lt_of_le_of_lt (erasePass_length_le pattern 0 left) bounded

/-- No occurrence reaches over a mark that is not in the pattern. -/
theorem prefix_of_prefix_append_cons {pattern front back : Text} {mark : Char}
    (apart : mark ∉ pattern) (occurs : pattern <+: front ++ mark :: back) : pattern <+: front := by
  rcases List.prefix_or_prefix_of_prefix occurs (List.prefix_append front (mark :: back)) with
    inside | ⟨rest, rfl⟩
  · exact inside
  · -- What is left of the pattern would begin with the mark.
    rw [List.prefix_append_right_inj] at occurs
    cases rest with
    | nil => simp
    | cons char rest =>
      rw [List.cons_prefix_cons] at occurs
      exact absurd (by simp [occurs.1]) apart

/-- A pass works by itself on each side of a mark that is not in the pattern. -/
theorem eraseOnce_append_cons {pattern : Text} (nonempty : pattern ≠ []) {mark : Char}
    (apart : mark ∉ pattern) (front back : Text) :
    eraseOnce pattern (front ++ mark :: back) =
      eraseOnce pattern front ++ mark :: eraseOnce pattern back := by
  induction front using passInduction nonempty with
  | nil =>
    have stays : ¬pattern <+: mark :: back :=
      fun occurs => nonempty (List.prefix_nil.mp (@prefix_of_prefix_append_cons _ [] _ _ apart occurs))
    exact eraseOnce_of_not_front stays
  | met rest ih =>
    rw [List.append_assoc, eraseOnce_pattern nonempty, eraseOnce_pattern nonempty, ih]
  | kept char rest stays ih =>
    have still : ¬pattern <+: char :: (rest ++ mark :: back) :=
      fun occurs => stays (@prefix_of_prefix_append_cons _ (char :: rest) _ _ apart occurs)
    rw [List.cons_append, eraseOnce_of_not_front still, ih, eraseOnce_of_not_front stays,
      List.cons_append]

/-- Erasing works by itself on each side of a mark that is not in the pattern. -/
theorem eraseFully_append_cons {pattern : Text} {mark : Char} (apart : mark ∉ pattern)
    (front back : Text) :
    eraseFully pattern (front ++ mark :: back) =
      eraseFully pattern front ++ mark :: eraseFully pattern back := by
  by_cases empty : pattern = []
  · simp [eraseFully, empty]
  · -- Each pass that is needed makes the whole shorter, and so moves both sides on.
    induction length : (front ++ mark :: back).length using Nat.strongRecOn
      generalizing front back with
    | ind size ih =>
      by_cases occurs : pattern <:+: front ++ mark :: back
      · have shorter := eraseOnce_length_lt empty (occursIn_iff.mpr occurs)
        rw [length, eraseOnce_append_cons empty apart] at shorter
        rw [← eraseFully_eraseOnce empty, eraseOnce_append_cons empty apart, ih _ shorter _ _ rfl,
          eraseFully_eraseOnce empty, eraseFully_eraseOnce empty]
      · have inFront : ¬pattern <:+: front :=
          fun inside => occurs (inside.trans (List.prefix_append _ _).isInfix)
        have inBack : ¬pattern <:+: back :=
          fun inside => occurs (inside.trans ((List.suffix_cons mark back).isInfix.trans
            (List.suffix_append _ _).isInfix))
        rw [eraseFully_of_not_occurs occurs, eraseFully_of_not_occurs inFront,
          eraseFully_of_not_occurs inBack]

/-- A pattern that occurs on neither side of a mark that is not in it does not occur at all. -/
theorem not_occurs_append_cons {pattern : Text} (nonempty : pattern ≠ []) {mark : Char}
    (apart : mark ∉ pattern) {front back : Text} (inFront : ¬pattern <:+: front)
    (inBack : ¬pattern <:+: back) : ¬pattern <:+: front ++ mark :: back := by
  intro occurs
  -- Otherwise erasing would make the text shorter, and it changes nothing on either side.
  have shorter := length_eraseFully_lt nonempty occurs
  rw [eraseFully_append_cons apart, eraseFully_of_not_occurs inFront,
    eraseFully_of_not_occurs inBack] at shorter
  exact Nat.lt_irrefl _ shorter

/-- A mark in front that is not in the pattern stays there. -/
theorem eraseFully_cons {pattern : Text} {mark : Char} (apart : mark ∉ pattern) (back : Text) :
    eraseFully pattern (mark :: back) = mark :: eraseFully pattern back := by
  have front := eraseFully_append_cons apart [] back
  rwa [eraseFully_nil] at front

/-- Erasing works by itself on each of the pieces behind marks that are not in the pattern. -/
theorem eraseFully_flatMap_cons {pattern : Text} {mark : Char} (apart : mark ∉ pattern)
    (front : Text) (pieces : List Text) :
    eraseFully pattern (front ++ pieces.flatMap fun piece => mark :: piece) =
      eraseFully pattern front ++ pieces.flatMap fun piece => mark :: eraseFully pattern piece := by
  induction pieces generalizing front with
  | nil => simp
  | cons piece pieces ih =>
    rw [List.flatMap_cons, List.flatMap_cons, List.cons_append, eraseFully_append_cons apart, ih,
      List.cons_append]

/-- A pass leaves alone what stands in front, when no occurrence begins there. -/
theorem eraseOnce_append {pattern front back : Text}
    (apart : ∀ rest, rest <:+ front → rest ≠ [] → ¬pattern <+: rest ++ back) :
    eraseOnce pattern (front ++ back) = front ++ eraseOnce pattern back := by
  induction front with
  | nil => rfl
  | cons char rest ih =>
    have stays : ¬pattern <+: char :: (rest ++ back) :=
      apart (char :: rest) (List.suffix_refl _) (by simp)
    rw [List.cons_append, eraseOnce_of_not_front stays,
      ih fun later inside => apart later (inside.trans (List.suffix_cons char rest)),
      List.cons_append]

/-- A text that a shift repeats has only characters that it is shifted by. -/
theorem mem_of_prefix_append {shift text : Text} (nonempty : shift ≠ [])
    (repeats : text <+: shift ++ text) {char : Char} (member : char ∈ text) : char ∈ shift := by
  obtain ⟨place, located⟩ := List.getElem?_of_mem member
  clear member
  -- Each place leads back to an earlier one, until the shift itself is reached.
  induction place using Nat.strongRecOn with
  | ind place ih =>
    have bounded := (List.getElem?_eq_some_iff.mp located).1
    obtain ⟨rest, same⟩ := repeats
    have shifted : (shift ++ text)[place]? = some char := by
      rw [← same, List.getElem?_append_left bounded, located]
    by_cases early : place < shift.length
    · rw [List.getElem?_append_left early] at shifted
      exact List.mem_of_getElem? shifted
    · have positive := List.length_pos_iff.mpr nonempty
      rw [List.getElem?_append_right (by omega)] at shifted
      exact ih (place - shift.length) (by omega) shifted

end Mangling
