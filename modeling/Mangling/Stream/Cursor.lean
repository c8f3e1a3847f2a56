import Mangling.Stream.Unread

/-! A cursor in a text: reads move it, and look-aheads move it, look, and move it back. -/

namespace Mangling

/-- A place in a text, which may also be behind its end. -/
structure Cursor where
  text : Text
  position : Nat := 0
  deriving DecidableEq

/-- A fresh cursor stands in front of the text. -/
def Cursor.ofText (text : Text) : Cursor :=
  { text }

/-- The characters ahead, of which there are none at the end of the text or behind it. -/
def Cursor.ahead (cursor : Cursor) : Text :=
  cursor.text.drop cursor.position

/-- Moves to a place, behind the end of the text if need be; one in front of the text does not
exist. -/
def Cursor.seek (target : Int) (cursor : Cursor) : Except Fault Cursor :=
  -- Nothing is asked of the text, so its end is no limit.
  if target < 0 then .error (.negativeSeek target)
  else .ok { cursor with position := target.toNat }

/-- Moves to the end of the text. -/
def Cursor.seekEnd (cursor : Cursor) : Cursor :=
  { cursor with position := cursor.text.length }

/-- Reads at most so many characters, or the rest of the text for a negative count. -/
def Cursor.read (count : Int) (cursor : Cursor) : Text × Cursor :=
  -- Fewer characters are taken where fewer are left, and the cursor moves by what was taken.
  let taken := if count < 0 then cursor.ahead else cursor.ahead.take count.toNat
  (taken, { cursor with position := cursor.position + taken.length })

/-- Reads exactly so many characters; a shorter read fails, although the cursor has moved, and so
does every read of a negative size. -/
def Cursor.readExact (size : Int) (cursor : Cursor) : Except Fault Text × Cursor :=
  -- A length is never negative, so no negative size is met.
  let (taken, after) := cursor.read size
  if taken.length = size then (.ok taken, after) else (.error (.shortRead size taken), after)

/-- Looks from a place at an offset and then moves back to where the cursor was, also when the look
fails. -/
def Cursor.peeking {α : Type} (offset : Int) (look : Cursor → Except Fault α × Cursor)
    (cursor : Cursor) : Except Fault α × Cursor :=
  -- Without an offset the look starts from where the cursor is, and nothing is sought.
  match if offset = 0 then .ok cursor else cursor.seek (cursor.position + offset) with
  | .error fault => (.error fault, cursor)
  | .ok moved =>
    -- The look may move the cursor further, so the way back starts from where it ends.
    let (seen, after) := look moved
    match after.seek cursor.position with
    | .error fault => (.error fault, after)
    | .ok restored => (seen, restored)

/-- Shows at most so many of the characters ahead, or all of them for a negative count. -/
def Cursor.peek (count offset : Int) : Cursor → Except Fault Text × Cursor :=
  -- Reading is looking once the cursor is put back.
  Cursor.peeking offset fun cursor =>
    let (taken, after) := cursor.read count
    (.ok taken, after)

/-- The number of characters behind a place at an offset, negative beyond the end. -/
def Cursor.left (offset : Int) (cursor : Cursor) : Except Fault Int × Cursor :=
  -- The offset shifts the place from which characters are counted, and nothing is sought there.
  cursor.peeking 0 fun moved =>
    (.ok (moved.seekEnd.position - (cursor.position + offset)), moved.seekEnd)

/-- Where nothing is ahead nothing is read. -/
theorem Cursor.read_one_of_nil {cursor : Cursor} (spent : cursor.ahead = []) :
    cursor.read 1 = ([], cursor) := by
  simp [read, spent]

/-- Reading one character takes the first one of those ahead, and leaves the others ahead. -/
theorem Cursor.read_one_of_cons {cursor : Cursor} {char : Char} {rest : Text}
    (left : cursor.ahead = char :: rest) :
    cursor.read 1 = ([char], { cursor with position := cursor.position + 1 }) ∧
      { cursor with position := cursor.position + 1 }.ahead = rest := by
  refine ⟨by simp [read, left], ?_⟩
  -- What is ahead of the next place is what follows the character.
  unfold ahead at left ⊢
  rw [← List.drop_drop, left]
  rfl

/-- Reads one character after the other until one stops it or the text ends; the answer is the number
of characters in front of that, and the character that stopped it. -/
def Cursor.countUntil (stops : Char → Bool) (count : Nat) (cursor : Cursor) :
    (Nat × Option Char) × Cursor :=
  match _ : cursor.read 1 with
  | ([], after) => ((count, none), after)
  | (char :: _, after) =>
    -- The character that stops it has been read too.
    if stops char then ((count, some char), after) else after.countUntil stops (count + 1)
termination_by cursor.ahead.length
decreasing_by
  rename_i next _
  -- A character that was read is no longer ahead.
  cases left : cursor.ahead with
  | nil =>
    rw [cursor.read_one_of_nil left] at next
    simp at next
  | cons other rest =>
    obtain ⟨taken, behind⟩ := cursor.read_one_of_cons left
    rw [taken, Prod.mk.injEq] at next
    rw [← next.2, behind]
    exact Nat.lt_succ_self _

/-- How far ahead the first character of a class is. -/
def Cursor.distanceTo (chars : Char → Bool) : Cursor → Except Fault (Option Nat) × Cursor :=
  -- The look ends where it finds one, short of the end of the text.
  Cursor.peeking 0 fun cursor =>
    let ((count, found), after) := cursor.countUntil chars 0
    (.ok (found.map fun _ => count), after)

/-- How far ahead the last occurrence of a pattern is. -/
def Cursor.distanceToLast (pattern : Text) : Cursor → Except Fault (Option Nat) × Cursor :=
  -- The rest of the text is read in one go.
  Cursor.peeking 0 fun cursor =>
    let (rest, after) := cursor.read (-1)
    (.ok (Mangling.distanceToLast pattern rest), after)

/-- How many characters of a class come next behind a place at an offset. -/
def Cursor.runLength (chars : Char → Bool) (offset : Int) : Cursor → Except Fault Nat × Cursor :=
  -- Any other character stops the count, and so does the end of the text.
  Cursor.peeking offset fun cursor =>
    let ((count, _), after) := cursor.countUntil (fun char => !chars char) 0
    (.ok count, after)

/-- Reads the spaces and tabs that come next, and counts them. -/
def Cursor.skipBlanks (cursor : Cursor) : Except Fault Nat × Cursor :=
  -- The run is measured first and then read.
  match cursor.runLength isSpaceOrTab 0 with
  | (.error fault, cursor) => (.error fault, cursor)
  | (.ok count, cursor) =>
    match cursor.readExact count with
    | (.error fault, cursor) => (.error fault, cursor)
    | (.ok _, cursor) => (.ok count, cursor)

/-- A cursor is finished when nothing is left unread. -/
def Cursor.finish (cursor : Cursor) : Except Fault Unit :=
  checkSpent cursor.ahead

/-- What can be asked of a cursor. -/
inductive Step where
  | readExact (size : Int)
  | peek (count offset : Int)
  | left (offset : Int)
  | distanceTo (chars : Text)
  | distanceToLast (pattern : Text)
  | runLength (chars : Text) (offset : Int)
  | skipBlanks
  deriving DecidableEq

/-- What a cursor answers. -/
inductive Reply where
  | text (text : Text)
  | count (count : Int)
  | place (place : Option Nat)
  deriving DecidableEq

/-- A look-ahead is a step that only measures or shows what lies ahead. -/
def Step.isLookAhead : Step → Bool
  | .readExact _ => false
  | .skipBlanks => false
  | _ => true

/-- An answer of one sort among the answers of all sorts. -/
def reply {α : Type} (wrap : α → Reply) (answer : Except Fault α × Cursor) :
    Except Fault Reply × Cursor :=
  (answer.1.map wrap, answer.2)

/-- The answer to a step, and the cursor after it. -/
def Cursor.perform (step : Step) (cursor : Cursor) : Except Fault Reply × Cursor :=
  match step with
  | .readExact size => reply .text (cursor.readExact size)
  | .peek count offset => reply .text (cursor.peek count offset)
  | .left offset => reply .count (cursor.left offset)
  | .distanceTo chars => reply .place (cursor.distanceTo (chars.contains ·))
  | .distanceToLast pattern => reply .place (cursor.distanceToLast pattern)
  | .runLength chars offset =>
    reply (fun count : Nat => .count count) (cursor.runLength (chars.contains ·) offset)
  | .skipBlanks => reply (fun count : Nat => .count count) cursor.skipBlanks

/-- The answers to a sequence of steps, each with the position after it, and the last cursor. -/
def Cursor.run : List Step → Cursor → List (Except Fault Reply × Nat) × Cursor
  | [], cursor => ([], cursor)
  | step :: steps, cursor =>
    -- A step that fails still leaves a cursor, on which the next one works.
    let (answer, after) := cursor.perform step
    let (answers, last) := Cursor.run steps after
    ((answer, after.position) :: answers, last)

end Mangling
