import Mangling.Text.Basic

/-! Erasing the occurrences of a pattern: in one pass, or in passes until none is left. -/

namespace Mangling

/-- A pattern occurs where some end of the text begins with it. -/
def occursIn (pattern : Text) : Text → Bool
  -- The empty pattern occurs even in the empty text.
  | [] => pattern.isEmpty
  | char :: rest => pattern.isPrefixOf (char :: rest) || occursIn pattern rest

/-- The rest of a pass, in which the next few characters belong to an occurrence already met. -/
def erasePass (pattern : Text) : Nat → Text → Text
  | _, [] => []
  -- The occurrence being skipped is erased to its end before the search goes on.
  | skip + 1, _ :: rest => erasePass pattern skip rest
  | 0, char :: rest =>
    -- The character in front is the first of the occurrence, so one less is left to skip.
    if pattern.isPrefixOf (char :: rest) then erasePass pattern (pattern.length - 1) rest
    else char :: erasePass pattern 0 rest

/-- One pass erases occurrences from left to right, each search starting behind the last one. -/
def eraseOnce (pattern text : Text) : Text :=
  -- Nothing is to be skipped before the first occurrence.
  erasePass pattern 0 text

/-- At most so many passes, stopping early where the pattern no longer occurs. -/
def eraseRounds (pattern : Text) : Nat → Text → Text
  | 0, text => text
  | rounds + 1, text =>
    if occursIn pattern text then eraseRounds pattern rounds (eraseOnce pattern text) else text

/-- Passes are repeated until the pattern no longer occurs, because erasing one occurrence can
join the halves of another; the empty pattern erases nothing. -/
def eraseFully (pattern text : Text) : Text :=
  -- Each pass shortens the text, so its length bounds their number.
  if pattern.isEmpty then text else eraseRounds pattern text.length text

/-- A run of spaces shrinks to one. -/
def collapseSpaces : Text → Text
  | [] => []
  | char :: rest =>
    -- A space gives way to the space behind it, so the last of a run stays.
    if char == ' ' && rest.head? == some ' ' then collapseSpaces rest
    else char :: collapseSpaces rest

/-- A pass drops as many characters as it is told to skip. -/
theorem erasePass_skip (pattern : Text) (skip : Nat) (text : Text) :
    erasePass pattern skip text = eraseOnce pattern (text.drop skip) := by
  -- Each skipped character is dropped, and the count goes down with it.
  induction text generalizing skip with
  | nil => simp [erasePass, eraseOnce]
  | cons char rest ih =>
    cases skip with
    | zero => simp [eraseOnce]
    | succ skip => simpa [erasePass] using ih skip

/-- An occurrence in front is erased whole. -/
theorem eraseOnce_pattern {pattern : Text} (nonempty : pattern ≠ []) (rest : Text) :
    eraseOnce pattern (pattern ++ rest) = eraseOnce pattern rest := by
  -- The first character opens the occurrence, and the others are skipped.
  cases pattern with
  | nil => exact absurd rfl nonempty
  | cons first others =>
    have front : (first :: others).isPrefixOf (first :: (others ++ rest)) = true := by
      simp
    rw [List.cons_append, eraseOnce, erasePass, if_pos front, erasePass_skip]
    simp

/-- A character that starts no occurrence stays. -/
theorem eraseOnce_cons {pattern : Text} {char : Char} {rest : Text}
    (apart : pattern.isPrefixOf (char :: rest) = false) :
    eraseOnce pattern (char :: rest) = char :: eraseOnce pattern rest := by
  simp [eraseOnce, erasePass, apart]

/-- A pass never lengthens a text. -/
theorem erasePass_length_le (pattern : Text) (skip : Nat) (text : Text) :
    (erasePass pattern skip text).length ≤ text.length := by
  -- Every character is kept at most once.
  induction text generalizing skip with
  | nil => simp [erasePass]
  | cons char rest ih =>
    cases skip with
    | succ skip =>
      have shorter := ih skip
      simp only [erasePass, List.length_cons]
      omega
    | zero =>
      rw [erasePass]
      split
      · have shorter := ih (pattern.length - 1)
        simp only [List.length_cons]
        omega
      · have shorter := ih 0
        simp only [List.length_cons]
        omega

/-- A pass over a text in which the pattern occurs shortens it. -/
theorem eraseOnce_length_lt {pattern text : Text} (nonempty : pattern ≠ [])
    (occurs : occursIn pattern text = true) : (eraseOnce pattern text).length < text.length := by
  -- The first occurrence loses its first character, and nothing in front of it grows.
  induction text with
  | nil => simp [occursIn, nonempty] at occurs
  | cons char rest ih =>
    by_cases front : pattern.isPrefixOf (char :: rest) = true
    · have shorter := erasePass_length_le pattern (pattern.length - 1) rest
      rw [eraseOnce, erasePass, if_pos front, List.length_cons]
      omega
    · have apart : pattern.isPrefixOf (char :: rest) = false := eq_false_of_ne_true front
      have later : occursIn pattern rest = true := by
        simpa [occursIn, apart] using occurs
      have shorter := ih later
      rw [eraseOnce_cons apart, List.length_cons, List.length_cons]
      omega

/-- As many passes as the text has characters leave no occurrence. -/
theorem occursIn_eraseRounds {pattern : Text} (nonempty : pattern ≠ []) :
    ∀ (rounds : Nat) (text : Text), text.length ≤ rounds →
      occursIn pattern (eraseRounds pattern rounds text) = false := by
  -- A pass that is needed shortens the text, so the bound keeps up with it.
  intro rounds
  induction rounds with
  | zero =>
    intro text bound
    have empty : text = [] := List.eq_nil_of_length_eq_zero (by omega)
    simp [empty, eraseRounds, occursIn, nonempty]
  | succ rounds ih =>
    intro text bound
    rw [eraseRounds]
    split
    next occurs =>
      have shorter := eraseOnce_length_lt nonempty occurs
      exact ih _ (by omega)
    next absent => simpa using absent

/-- Erasing fully leaves no occurrence. -/
theorem occursIn_eraseFully {pattern : Text} (nonempty : pattern ≠ []) (text : Text) :
    occursIn pattern (eraseFully pattern text) = false := by
  -- The number of passes allowed is the length itself.
  rw [eraseFully, if_neg (by simpa using nonempty)]
  exact occursIn_eraseRounds nonempty _ _ (Nat.le_refl _)

/-- A text without the pattern is left as it is. -/
theorem eraseFully_of_absent {pattern text : Text} (absent : occursIn pattern text = false) :
    eraseFully pattern text = text := by
  -- The first pass is never made.
  rw [eraseFully]
  split
  · rfl
  · cases length : text.length with
    | zero => rfl
    | succ rounds => simp [eraseRounds, absent]

/-- Any number of passes that leaves no occurrence gives the same text. -/
theorem eraseRounds_of_enough {pattern : Text} (nonempty : pattern ≠ []) :
    ∀ (rounds : Nat) (text : Text), text.length ≤ rounds →
      eraseRounds pattern rounds text = eraseFully pattern text := by
  -- Two bounds at or above the length agree, one pass at a time.
  have agree : ∀ (rounds more : Nat) (text : Text), text.length ≤ rounds → text.length ≤ more →
      eraseRounds pattern rounds text = eraseRounds pattern more text := by
    intro rounds
    induction rounds with
    | zero =>
      intro more text bound _
      have empty : text = [] := List.eq_nil_of_length_eq_zero (by omega)
      have absent : occursIn pattern [] = false := by simp [occursIn, nonempty]
      cases more <;> simp [empty, eraseRounds, absent]
    | succ rounds ih =>
      intro more text bound enough
      cases more with
      | zero =>
        have empty : text = [] := List.eq_nil_of_length_eq_zero (by omega)
        have absent : occursIn pattern [] = false := by simp [occursIn, nonempty]
        simp [empty, eraseRounds, absent]
      | succ more =>
        rw [eraseRounds, eraseRounds]
        split
        next occurs =>
          have shorter := eraseOnce_length_lt nonempty occurs
          exact ih more _ (by omega) (by omega)
        next => rfl
  intro rounds text bound
  rw [eraseFully, if_neg (by simpa using nonempty)]
  exact agree rounds text.length text bound (Nat.le_refl _)

/-- Where the pattern occurs, erasing fully is one pass and then erasing fully. -/
theorem eraseFully_of_occurs {pattern text : Text} (nonempty : pattern ≠ [])
    (occurs : occursIn pattern text = true) :
    eraseFully pattern text = eraseFully pattern (eraseOnce pattern text) := by
  -- One more pass than the length is as good, and the first of them is the one made here.
  have shorter := eraseOnce_length_lt nonempty occurs
  rw [← eraseRounds_of_enough nonempty (text.length + 1) text (by omega), eraseRounds,
    if_pos occurs]
  exact eraseRounds_of_enough nonempty _ _ (by omega)

end Mangling
