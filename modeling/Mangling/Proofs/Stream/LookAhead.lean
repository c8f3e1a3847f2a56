import Mangling.Proofs.Text.Joined
import Mangling.Stream.Cursor

/-! Look-aheads are invisible to the other steps of a cursor, and they measure exactly what lies
ahead. -/

namespace Mangling

/-- The cursor so many characters further on. -/
def Cursor.moved (distance : Nat) (cursor : Cursor) : Cursor :=
  { cursor with position := cursor.position + distance }

/-- A read of so many characters ends in front of the first character of a class. -/
def Cursor.ReachesFirst (chars : Char → Bool) (cursor : Cursor) (distance : Nat) : Prop :=
  ∃ content char rest, cursor.readExact distance = (.ok content, cursor.moved distance) ∧
    (∀ other ∈ content, chars other = false) ∧
    (cursor.moved distance).ahead = char :: rest ∧ chars char = true

/-- A read of so many characters ends in front of the last occurrence of a character. -/
def Cursor.ReachesLast (mark : Char) (cursor : Cursor) (distance : Nat) : Prop :=
  ∃ content rest, cursor.readExact distance = (.ok content, cursor.moved distance) ∧
    (cursor.moved distance).ahead = mark :: rest ∧ mark ∉ rest

/-- How far from the cursor a step starts; the characters left are counted without going there. -/
def Step.offset : Step → Int
  | .peek _ offset => offset
  | .runLength _ offset => offset
  | _ => 0

/-- A step of a sequence, and whether it was inserted into the sequence. -/
structure PlacedStep where
  step : Step
  isInserted : Bool
  deriving DecidableEq

/-- A sequence with the inserted steps. -/
def wholeSequence (steps : List PlacedStep) : List Step :=
  steps.map PlacedStep.step

/-- A sequence as it was before any step was inserted. -/
def ownSequence (steps : List PlacedStep) : List Step :=
  (steps.filter fun placed => !placed.isInserted).map PlacedStep.step

/-- Of the answers to a whole sequence, those to the steps that were not inserted. -/
def ownAnswers {α : Type} (steps : List PlacedStep) (answers : List α) : List α :=
  ((steps.zip answers).filter fun pair => !pair.1.isInserted).map Prod.snd

/-- No cursor is in front of its text. -/
@[simp] theorem Cursor.position_not_neg (cursor : Cursor) : ¬((cursor.position : Int) < 0) :=
  Int.not_lt.mpr (Int.natCast_nonneg _)

/-- What is ahead of a cursor further on is what is left behind the characters in between. -/
theorem Cursor.ahead_moved (distance : Nat) (cursor : Cursor) :
    (cursor.moved distance).ahead = cursor.ahead.drop distance := by
  rw [ahead, ahead, moved, List.drop_drop]

/-- A read takes the characters that come next, and moves behind them. -/
theorem Cursor.read_natCast (size : Nat) (cursor : Cursor) :
    cursor.read size =
      (cursor.ahead.take size, cursor.moved (cursor.ahead.take size).length) := by
  have inside : ¬((size : Int) < 0) := by omega
  simp [read, inside, moved]

/-- Reading an exact number of characters agrees with reading them from the unread text. -/
theorem Cursor.readExact_ahead (size : Nat) (cursor : Cursor) :
    (cursor.readExact size).1 = (Mangling.readExact size cursor.ahead).1 ∧
      (cursor.readExact size).2.ahead = (Mangling.readExact size cursor.ahead).2 := by
  simp only [readExact, read_natCast, Mangling.readExact]
  -- Both fail in the same case, when fewer characters are left.
  by_cases enough : size ≤ cursor.ahead.length
  · simp [enough, ahead_moved]
  · have short : cursor.ahead.take size = cursor.ahead := List.take_of_length_le (by omega)
    have differs : ¬((cursor.ahead.length : Int) = size) := by omega
    simp [enough, short, differs, ahead_moved]

/-- An exact read succeeds with the characters that come next, and leaves the others ahead. -/
theorem Cursor.readExact_eq_ok_iff {cursor : Cursor} {size : Nat} {content : Text} :
    cursor.readExact size = (.ok content, cursor.moved size) ↔
      content.length = size ∧ cursor.ahead = content ++ (cursor.moved size).ahead := by
  simp only [readExact, read_natCast]
  constructor
  · intro succeeded
    split at succeeded
    next complete =>
      simp only [Prod.mk.injEq, Except.ok.injEq] at succeeded
      obtain ⟨rfl, _⟩ := succeeded
      refine ⟨by exact_mod_cast complete, ?_⟩
      rw [ahead_moved, List.take_append_drop]
    next => simp at succeeded
  · rintro ⟨rfl, whole⟩
    have front : cursor.ahead.take content.length = content := by rw [whole, List.take_left]
    rw [front, if_pos rfl]

/-- What stands in front of the others ahead can be read, and then the others are ahead. -/
theorem Cursor.readExact_of_ahead {cursor : Cursor} {content rest : Text}
    (whole : cursor.ahead = content ++ rest) :
    cursor.readExact content.length = (.ok content, cursor.moved content.length) ∧
      (cursor.moved content.length).ahead = rest := by
  have behind : (cursor.moved content.length).ahead = rest := by
    rw [ahead_moved, whole, List.drop_left]
  exact ⟨readExact_eq_ok_iff.mpr ⟨rfl, by rw [behind, whole]⟩, behind⟩

/-- A look that stays in its text is made from the place at the offset, unless there is no such place,
and the cursor is back where it was in either case. -/
theorem Cursor.peeking_eq {α : Type} (offset : Int) {look : Cursor → Except Fault α × Cursor}
    (within : ∀ moved, (look moved).2.text = moved.text) (cursor : Cursor) :
    cursor.peeking offset look =
      (if cursor.position + offset < 0 then .error (.negativeSeek (cursor.position + offset))
        else (look { cursor with position := (cursor.position + offset).toNat }).1, cursor) := by
  -- The place that the cursor goes back to is its own, which is never negative.
  have back (after : Cursor) (same : after.text = cursor.text) :
      after.seek cursor.position = .ok cursor := by
    rw [seek, if_neg cursor.position_not_neg, same]
    rfl
  rw [peeking]
  by_cases still : offset = 0
  · simp [still, back _ (within cursor)]
  · rw [if_neg still, seek]
    by_cases negative : cursor.position + offset < 0
    · simp only [if_pos negative]
    · have restored := back _ (within { cursor with position := (cursor.position + offset).toNat })
      simp only [if_neg negative, restored]

/-- Without an offset a look is made from where the cursor is. -/
theorem Cursor.peeking_zero {α : Type} {look : Cursor → Except Fault α × Cursor}
    (within : ∀ moved, (look moved).2.text = moved.text) (cursor : Cursor) :
    cursor.peeking 0 look = ((look cursor).1, cursor) := by
  simp [peeking_eq 0 within]

/-- Counting stops at the first character that is to stop it, and stays in its text. -/
theorem Cursor.countUntil_eq (stops : Char → Bool) (count : Nat) (cursor : Cursor) :
    (cursor.countUntil stops count).1 =
        (count + (cursor.ahead.takeWhile fun char => !stops char).length,
          (cursor.ahead.dropWhile fun char => !stops char).head?) ∧
      (cursor.countUntil stops count).2.text = cursor.text := by
  -- The induction is on what is ahead, of which every read takes one character.
  induction left : cursor.ahead generalizing cursor count with
  | nil =>
    rw [countUntil]
    split
    next after taken =>
      rw [read_one_of_nil left, Prod.mk.injEq] at taken
      exact ⟨rfl, by rw [← taken.2]⟩
    next char others after taken => simp [read_one_of_nil left] at taken
  | cons char rest ih =>
    obtain ⟨single, behind⟩ := read_one_of_cons left
    rw [countUntil]
    split
    next after taken => simp [single] at taken
    next other others after taken =>
      rw [single, Prod.mk.injEq, List.cons.injEq] at taken
      obtain ⟨⟨rfl, _⟩, rfl⟩ := taken
      by_cases stop : stops char = true
      · simp [stop]
      · -- The character is counted, and the rest is counted from the next place.
        obtain ⟨counted, same⟩ := ih (count + 1) _ behind
        rw [if_neg stop, counted, same]
        simp [stop, Nat.add_assoc, Nat.add_comm]

/-- Showing characters shows those at the offset. -/
theorem Cursor.peek_eq (count offset : Int) (cursor : Cursor) :
    cursor.peek count offset =
      (if cursor.position + offset < 0 then .error (.negativeSeek (cursor.position + offset))
        else .ok ({ cursor with position := (cursor.position + offset).toNat }.read count).1,
        cursor) := by
  rw [peek, peeking_eq offset (by intro moved; rfl)]

/-- The characters left are counted from the offset to the end. -/
theorem Cursor.left_eq (offset : Int) (cursor : Cursor) :
    cursor.left offset = (.ok (cursor.text.length - (cursor.position + offset)), cursor) := by
  rw [left, peeking_zero (by intro moved; rfl)]
  rfl

/-- The distance to a class is measured in the characters ahead. -/
theorem Cursor.distanceTo_eq (chars : Char → Bool) (cursor : Cursor) :
    cursor.distanceTo chars = (.ok (Mangling.distanceTo chars cursor.ahead), cursor) := by
  rw [distanceTo, peeking_zero fun moved => (moved.countUntil_eq chars 0).2]
  simp only [(cursor.countUntil_eq chars 0).1, Nat.zero_add, Prod.mk.injEq, Except.ok.injEq,
    and_true]
  -- Each character that does not belong to the class adds one to the distance.
  generalize cursor.ahead = ahead
  unfold Mangling.distanceTo
  induction ahead with
  | nil => rfl
  | cons char rest ih =>
    by_cases found : chars char = true
    · simp [List.findIdx?_cons, found]
    · simp only [List.findIdx?_cons, found, ← ih]
      simp [found, Option.map_map, Function.comp_def]

/-- The distance to the last occurrence of a pattern is measured in the characters ahead. -/
theorem Cursor.distanceToLast_eq (pattern : Text) (cursor : Cursor) :
    cursor.distanceToLast pattern =
      (.ok (Mangling.distanceToLast pattern cursor.ahead), cursor) := by
  rw [distanceToLast, peeking_zero (by intro moved; rfl)]
  rfl

/-- The run of a class is measured in the characters ahead of the offset. -/
theorem Cursor.runLength_eq (chars : Char → Bool) (offset : Int) (cursor : Cursor) :
    cursor.runLength chars offset =
      (if cursor.position + offset < 0 then .error (.negativeSeek (cursor.position + offset))
        else .ok (Mangling.runLength chars
          { cursor with position := (cursor.position + offset).toNat }.ahead), cursor) := by
  rw [runLength, peeking_eq offset fun moved => (moved.countUntil_eq (fun char => !chars char) 0).2]
  simp [(countUntil_eq (fun char => !chars char) 0 _).1, Mangling.runLength]

/-- Blanks are skipped up to the first other character, and they are all there to be read. -/
theorem Cursor.skipBlanks_eq (cursor : Cursor) :
    cursor.skipBlanks =
        (.ok (Mangling.runLength isSpaceOrTab cursor.ahead),
          cursor.moved (Mangling.runLength isSpaceOrTab cursor.ahead)) ∧
      (cursor.moved (Mangling.runLength isSpaceOrTab cursor.ahead)).ahead =
        cursor.ahead.dropWhile isSpaceOrTab := by
  have measured : cursor.runLength isSpaceOrTab 0 =
      (.ok (Mangling.runLength isSpaceOrTab cursor.ahead), cursor) := by
    simp [runLength_eq]
  -- The run and what follows it make up the characters ahead.
  obtain ⟨read, behind⟩ := readExact_of_ahead
    (List.takeWhile_append_dropWhile (p := isSpaceOrTab) (l := cursor.ahead)).symm
  refine ⟨?_, behind⟩
  rw [skipBlanks, measured]
  simp only [Mangling.runLength, read]

/-- A look-ahead leaves the cursor where it was, also when it fails, and it fails in front of the text
only. -/
theorem Cursor.perform_lookAhead {step : Step} (looks : step.isLookAhead = true) (cursor : Cursor) :
    (cursor.perform step).2 = cursor ∧
      ∀ fault, (cursor.perform step).1 = .error fault ↔
        cursor.position + step.offset < 0 ∧
          fault = .negativeSeek (cursor.position + step.offset) := by
  cases step with
  | readExact size => simp [Step.isLookAhead] at looks
  | skipBlanks => simp [Step.isLookAhead] at looks
  | peek count offset =>
    by_cases negative : cursor.position + offset < 0 <;>
      simp [perform, reply, peek_eq, Step.offset, Except.map, negative, eq_comm]
  | left offset => simp [perform, reply, left_eq, Step.offset, Except.map]
  | distanceTo chars => simp [perform, reply, distanceTo_eq, Step.offset, Except.map]
  | distanceToLast pattern =>
    simp [perform, reply, distanceToLast_eq, Step.offset, Except.map]
  | runLength chars offset =>
    by_cases negative : cursor.position + offset < 0 <;>
      simp [perform, reply, runLength_eq, Step.offset, Except.map, negative, eq_comm]

/-- Inserted look-aheads change neither the answers to the other steps nor the last cursor. -/
theorem Cursor.run_wholeSequence {steps : List PlacedStep}
    (looks : ∀ placed ∈ steps, placed.isInserted = true → placed.step.isLookAhead = true)
    (cursor : Cursor) :
    ownAnswers steps (Cursor.run (wholeSequence steps) cursor).1 =
        (Cursor.run (ownSequence steps) cursor).1 ∧
      (Cursor.run (wholeSequence steps) cursor).2 = (Cursor.run (ownSequence steps) cursor).2 := by
  -- The cursor varies in the induction, because a step of the sequence itself may move it.
  induction steps generalizing cursor with
  | nil => exact ⟨rfl, rfl⟩
  | cons placed steps ih =>
    have later := @ih fun other member => looks other (List.mem_cons_of_mem _ member)
    cases inserted : placed.isInserted with
    | true =>
      -- The next step works on the cursor that the inserted one was given.
      have still := (perform_lookAhead (looks placed (List.mem_cons_self ..) inserted) cursor).1
      have own : ownSequence (placed :: steps) = ownSequence steps := by
        simp [ownSequence, inserted]
      rw [own, ← (later cursor).1, ← (later cursor).2]
      simp [wholeSequence, ownAnswers, run, inserted, still]
    | false =>
      have own : ownSequence (placed :: steps) = placed.step :: ownSequence steps := by
        simp [ownSequence, inserted]
      simp only [own, run, ← (later _).1, ← (later _).2]
      simp [wholeSequence, ownAnswers, run, inserted]

/-- A class is as far ahead as its first character can be reached. -/
theorem Cursor.distanceTo_eq_some_iff {chars : Char → Bool} {cursor : Cursor} {distance : Nat} :
    Mangling.distanceTo chars cursor.ahead = some distance ↔
      cursor.ReachesFirst chars distance := by
  rw [Mangling.distanceTo_eq_some_iff]
  constructor
  · rintro ⟨front, char, back, whole, rfl, free, found⟩
    obtain ⟨read, behind⟩ := readExact_of_ahead whole
    exact ⟨front, char, back, read, free, behind, found⟩
  · rintro ⟨front, char, back, read, free, behind, found⟩
    obtain ⟨size, whole⟩ := readExact_eq_ok_iff.mp read
    exact ⟨front, char, back, by rw [whole, behind], size, free, found⟩

/-- A character is last as far ahead as its last occurrence can be reached. -/
theorem Cursor.distanceToLast_eq_some_iff {mark : Char} {cursor : Cursor} {distance : Nat} :
    Mangling.distanceToLast [mark] cursor.ahead = some distance ↔
      cursor.ReachesLast mark distance := by
  unfold Mangling.distanceToLast
  constructor
  · intro found
    -- The character occurs, so what is ahead splits at its last occurrence.
    have occurs : mark ∈ cursor.ahead := Decidable.byContradiction fun free => by
      simp [lastPlace_of_not_mem free] at found
    obtain ⟨front, back, whole, free⟩ := exists_last_split occurs
    rw [whole, lastPlace_append free, Option.some.injEq] at found
    obtain ⟨read, behind⟩ := readExact_of_ahead whole
    exact ⟨front, back, found ▸ read, found ▸ behind, free⟩
  · rintro ⟨front, back, read, behind, free⟩
    obtain ⟨rfl, whole⟩ := readExact_eq_ok_iff.mp read
    rw [whole, behind, lastPlace_append free]

/-- A character that is not ahead has no last occurrence there, and every other one has. -/
theorem distanceToLast_eq_none_iff {mark : Char} {unread : Text} :
    distanceToLast [mark] unread = none ↔ mark ∉ unread := by
  refine ⟨fun missing occurs => ?_, lastPlace_of_not_mem⟩
  obtain ⟨front, back, rfl, free⟩ := exists_last_split occurs
  simp [distanceToLast, lastPlace_append free] at missing

/-- Look-aheads leave the cursor where it was and are not seen by the other steps, and what they
measure is what a read then finds. -/
theorem Cursor.lookAheads_invisible (cursor : Cursor) :
    (∀ step : Step, step.isLookAhead = true →
      (cursor.perform step).2 = cursor ∧
        ∀ fault, (cursor.perform step).1 = .error fault ↔
          cursor.position + step.offset < 0 ∧
            fault = .negativeSeek (cursor.position + step.offset)) ∧
    (∀ steps : List PlacedStep,
      (∀ placed ∈ steps, placed.isInserted = true → placed.step.isLookAhead = true) →
        ownAnswers steps (Cursor.run (wholeSequence steps) cursor).1 =
            (Cursor.run (ownSequence steps) cursor).1 ∧
          (Cursor.run (wholeSequence steps) cursor).2 =
            (Cursor.run (ownSequence steps) cursor).2) ∧
    (∀ chars : Char → Bool, ∃ found, cursor.distanceTo chars = (.ok found, cursor) ∧
      (∀ distance, found = some distance ↔ cursor.ReachesFirst chars distance) ∧
      (found = none ↔ ∀ char ∈ cursor.ahead, chars char = false)) ∧
    (∀ mark : Char, ∃ found, cursor.distanceToLast [mark] = (.ok found, cursor) ∧
      (∀ distance, found = some distance ↔ cursor.ReachesLast mark distance) ∧
      (found = none ↔ mark ∉ cursor.ahead)) ∧
    (∃ blanks, cursor.skipBlanks = (.ok blanks.length, cursor.moved blanks.length) ∧
      (∀ char ∈ blanks, isSpaceOrTab char = true) ∧
      cursor.ahead = blanks ++ (cursor.moved blanks.length).ahead ∧
      ∀ char ∈ (cursor.moved blanks.length).ahead.head?, isSpaceOrTab char = false) := by
  refine ⟨fun step looks => perform_lookAhead looks cursor,
    fun steps looks => run_wholeSequence looks cursor, fun chars => ?_, fun mark => ?_, ?_⟩
  · exact ⟨_, distanceTo_eq chars cursor, fun distance => distanceTo_eq_some_iff,
      List.findIdx?_eq_none_iff⟩
  · exact ⟨_, distanceToLast_eq [mark] cursor, fun distance => distanceToLast_eq_some_iff,
      distanceToLast_eq_none_iff⟩
  · -- The blanks are the run that is measured, and the rest does not go on with one.
    obtain ⟨skipped, behind⟩ := cursor.skipBlanks_eq
    refine ⟨cursor.ahead.takeWhile isSpaceOrTab, skipped, List.all_eq_true.mp List.all_takeWhile,
      ?_, ?_⟩
    · rw [← Mangling.runLength, behind, List.takeWhile_append_dropWhile]
    · -- The character that ended the run is the first of the others.
      intro char first
      have stopped := List.head?_dropWhile_not isSpaceOrTab cursor.ahead
      rw [← Mangling.runLength, behind] at first
      rwa [Option.mem_def.mp first] at stopped

/-- Between two reads two look-aheads are not seen, although one of them fails in front of the text. -/
theorem Cursor.lookAheads_invisible_between :
    let steps : List PlacedStep :=
      [{ step := .readExact 1, isInserted := false },
        { step := .peek 1 (-5), isInserted := true },
        { step := .distanceTo ['>'], isInserted := true },
        { step := .readExact 2, isInserted := false }]
    (∀ placed ∈ steps, placed.isInserted = true → placed.step.isLookAhead = true) ∧
      ownAnswers steps (Cursor.run (wholeSequence steps) (.ofText "a<b>".toList)).1 =
        [(.ok (.text "a".toList), 1), (.ok (.text "<b".toList), 3)] := by
  intro steps
  have looks : ∀ placed ∈ steps,
      placed.isInserted = true → placed.step.isLookAhead = true := by decide
  have invisible := ((lookAheads_invisible (.ofText "a<b>".toList)).2.1 steps looks).1
  exact ⟨looks, invisible.trans rfl⟩

end Mangling
