import Mangling.Fault
import Mangling.Text.Blank

/-! The unread end of a text: exact reads, and look-aheads that measure it. -/

namespace Mangling

/-- An exact read takes as many characters as it is told to, or fails and spends what was left. -/
def readExact (size : Nat) (unread : Text) : Except Fault Text × Text :=
  -- A short read leaves nothing behind, although it fails.
  if size ≤ unread.length then (.ok (unread.take size), unread.drop size)
  else (.error (.shortRead size unread), [])

/-- How far ahead the first character of a class is. -/
def distanceTo (chars : Char → Bool) (unread : Text) : Option Nat :=
  unread.findIdx? chars

/-- How far ahead the last occurrence of a pattern is. -/
def distanceToLast (pattern unread : Text) : Option Nat :=
  lastPlace pattern unread

/-- How many characters of a class come next. -/
def runLength (chars : Char → Bool) (unread : Text) : Nat :=
  (unread.takeWhile chars).length

/-- Reads the spaces and tabs that come next, and counts them. -/
def skipBlanks (unread : Text) : Except Fault Nat × Text :=
  -- The run is measured first and then read.
  let count := runLength isSpaceOrTab unread
  match readExact count unread with
  | (.ok _, rest) => (.ok count, rest)
  | (.error fault, rest) => (.error fault, rest)

/-- Reads up to a character at a known distance, and then that character, which is not kept. -/
def readClosed (distance : Nat) (unread : Text) : Except Fault Text × Text :=
  match readExact distance unread with
  | (.error fault, rest) => (.error fault, rest)
  | (.ok content, rest) =>
    -- The content is complete, and the closing character has no further use.
    match readExact 1 rest with
    | (.error fault, rest) => (.error fault, rest)
    | (.ok _, rest) => (.ok content, rest)

/-- A text that was to be read in full has nothing left. -/
def checkSpent (unread : Text) : Except Fault Unit :=
  -- What is left is part of the fault.
  if unread.isEmpty then .ok () else .error (.leftover unread)

/-- Reading a text of its own length gives that text and leaves what follows. -/
theorem readExact_append (front rest : Text) :
    readExact front.length (front ++ rest) = (.ok front, rest) := by
  -- The text in front is long enough by itself.
  simp [readExact]

/-- An exact read never lengthens what is unread. -/
theorem readExact_length_le (size : Nat) (unread : Text) :
    (readExact size unread).2.length ≤ unread.length := by
  -- Either an end of the text is left, or nothing.
  rw [readExact]
  split <;> simp

/-- Reading up to a closing character gives the text in front of it and leaves what follows. -/
theorem readClosed_append (content : Text) (close : Char) (rest : Text) :
    readClosed content.length (content ++ close :: rest) = (.ok content, rest) := by
  -- The closing character is one more exact read.
  have single : readExact 1 (close :: rest) = (.ok [close], rest) := readExact_append [close] rest
  rw [readClosed, readExact_append]
  simp [single]

/-- Reading up to a closing character never lengthens what is unread. -/
theorem readClosed_length_le (distance : Nat) (unread : Text) :
    (readClosed distance unread).2.length ≤ unread.length := by
  -- Both reads leave no more than they were given.
  have first := readExact_length_le distance unread
  rw [readClosed]
  split
  next fault rest read => simpa [read] using first
  next content rest read =>
    simp only [read] at first
    have second := readExact_length_le 1 rest
    split
    next fault last closed => simp only [closed] at second; exact Nat.le_trans second first
    next last closed => simp only [closed] at second; exact Nat.le_trans second first

/-- Skipping blanks always succeeds and stops at the first other character. -/
theorem skipBlanks_eq (unread : Text) :
    skipBlanks unread = (.ok (runLength isSpaceOrTab unread), unread.dropWhile isSpaceOrTab) := by
  -- The run and what follows it make up the text.
  have read := readExact_append (unread.takeWhile isSpaceOrTab) (unread.dropWhile isSpaceOrTab)
  rw [List.takeWhile_append_dropWhile] at read
  simp [skipBlanks, runLength, read]

/-- No distance leads to a class of which no character is left. -/
theorem distanceTo_of_free {chars : Char → Bool} {unread : Text}
    (free : ∀ char ∈ unread, chars char = false) : distanceTo chars unread = none :=
  List.findIdx?_eq_none_iff.mpr free

/-- The first character of a class is as far ahead as there are others in front of it. -/
theorem distanceTo_append {chars : Char → Bool} {front : Text}
    (free : ∀ char ∈ front, chars char = false) {char : Char} (found : chars char = true)
    (back : Text) : distanceTo chars (front ++ char :: back) = some front.length := by
  rw [distanceTo, List.findIdx?_append, List.findIdx?_eq_none_iff.mpr free]
  simp [List.findIdx?_cons, found]

/-- A distance leads to a character of the class with others in front of it only. -/
theorem distanceTo_eq_some_iff {chars : Char → Bool} {unread : Text} {distance : Nat} :
    distanceTo chars unread = some distance ↔
      ∃ front char back, unread = front ++ char :: back ∧ front.length = distance ∧
        (∀ other ∈ front, chars other = false) ∧ chars char = true := by
  constructor
  · intro measured
    obtain ⟨bounded, found, first⟩ := List.findIdx?_eq_some_iff_getElem.mp measured
    refine ⟨unread.take distance, unread[distance], unread.drop (distance + 1), by simp, ?_, ?_,
      found⟩
    · rw [List.length_take]
      omega
    · -- A character in front stands at a smaller distance.
      intro other member
      obtain ⟨place, within, rfl⟩ := List.mem_take_iff_getElem.mp member
      simpa using first place (by omega)
  · rintro ⟨front, char, back, rfl, rfl, free, found⟩
    exact distanceTo_append free found back

end Mangling
