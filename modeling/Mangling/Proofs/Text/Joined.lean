import Mangling.Text.Basic

/-! Joined texts are taken apart again, and the last mark in a text is found. -/

namespace Mangling

/-- The separator between the names on a path. -/
def scopeMark : Text := "::".toList

/-- The names on a path, joined. -/
def joinNames (names : List Text) : Text :=
  scopeMark.intercalate names

/-- A text without colons is its only piece. -/
theorem scopePieces_of_not_mem {name : Text} (plain : ':' ∉ name) : scopePieces name = [name] := by
  -- Every character joins the piece behind it.
  induction name with
  | nil => rfl
  | cons char rest ih =>
    rw [List.mem_cons, not_or] at plain
    rw [scopePieces_cons (Ne.symm plain.1), ih plain.2]
    rfl

/-- A separator ends the piece in front of it. -/
theorem scopePieces_append {name : Text} (plain : ':' ∉ name) (rest : Text) :
    scopePieces (name ++ (scopeMark ++ rest)) = name :: scopePieces rest := by
  induction name with
  | nil => rfl
  | cons char others ih =>
    rw [List.mem_cons, not_or] at plain
    rw [List.cons_append, scopePieces_cons (Ne.symm plain.1), ih plain.2]
    rfl

/-- Names without colons are the pieces of their path. -/
theorem scopePieces_joinNames {names : List Text} (nonempty : names ≠ [])
    (plain : ∀ name ∈ names, ':' ∉ name) : scopePieces (joinNames names) = names := by
  induction names with
  | nil => exact absurd rfl nonempty
  | cons name others ih =>
    have first := plain name (List.mem_cons_self ..)
    cases others with
    | nil => simpa [joinNames] using scopePieces_of_not_mem first
    | cons other others =>
      have rest := ih (by simp) fun inner member => plain inner (List.mem_cons_of_mem _ member)
      -- The separator stands behind the first name.
      have joined : joinNames (name :: other :: others) =
          name ++ (scopeMark ++ joinNames (other :: others)) := by
        simp [joinNames, List.intercalate_cons_cons]
      rw [joined, scopePieces_append first, rest]

/-- Behind a path a separator and one more name may stand. -/
theorem joinNames_concat (names : List Text) (last : Text) :
    joinNames (names ++ [last]) = names.flatMap (fun name => name ++ scopeMark) ++ last := by
  induction names with
  | nil => simp [joinNames]
  | cons name others ih =>
    cases others with
    | nil => simp [joinNames, List.intercalate_cons_cons]
    | cons other others =>
      simp only [joinNames, List.cons_append, List.intercalate_cons_cons] at ih ⊢
      rw [ih]
      simp

/-- A joined text has the characters of its parts. -/
theorem mem_intercalate {separator : Text} {parts : List Text} {part : Text} {char : Char}
    (inside : part ∈ parts) (member : char ∈ part) : char ∈ separator.intercalate parts := by
  induction parts with
  | nil => simp at inside
  | cons first others ih =>
    cases others with
    | nil => simpa [← List.mem_singleton.mp inside] using member
    | cons other others =>
      rw [List.intercalate_cons_cons]
      rcases List.mem_cons.mp inside with same | later
      · exact List.mem_append_left _ (List.mem_append_left _ (same ▸ member))
      · exact List.mem_append_right _ (ih later)

/-- The parts behind the first one come each behind its separator. -/
theorem intercalate_cons (separator : Char) (part : Text) (parts : List Text) :
    [separator].intercalate (part :: parts) = part ++ parts.flatMap (separator :: ·) := by
  induction parts generalizing part with
  | nil => simp
  | cons next parts ih =>
    rw [List.intercalate_cons_cons, ih]
    simp

/-- A character other than the comma is in one of the pieces between commas. -/
theorem exists_mem_commaPieces {char : Char} (other : char ≠ ',') {text : Text}
    (member : char ∈ text) : ∃ piece ∈ commaPieces text, char ∈ piece := by
  have joined : [','].intercalate (commaPieces text) = text := List.intercalate_splitOn ','
  cases pieces : commaPieces text with
  | nil => exact absurd pieces (commaPieces_ne_nil text)
  | cons piece others =>
    rw [pieces, intercalate_cons] at joined
    rw [← joined] at member
    simpa [other] using member

/-- What stands behind a mark that an ending lacks has this ending. -/
theorem exists_append_of_mark {α : Type} {front rest items ending : List α} {mark : α}
    (free : mark ∉ ending) (same : front ++ mark :: rest = items ++ ending) :
    ∃ inner, items = front ++ mark :: inner ∧ rest = inner ++ ending := by
  rcases List.append_eq_append_iff.mp same with ⟨inner, whole, behind⟩ | ⟨inner, _, behind⟩
  · cases inner with
    | nil =>
      have late : mark :: rest = ending := behind
      exact absurd (late ▸ List.mem_cons_self ..) free
    | cons first inner =>
      obtain ⟨rfl, split⟩ := List.cons.inj behind
      exact ⟨inner, whole, split⟩
  · exact absurd (by simp [behind]) free

/-- Where two texts have marks at their first places in each other, the places are the same. -/
theorem append_cons_inj {front other rest after : Text} {mark next : Char} (free : next ∉ front)
    (alsoFree : mark ∉ other) (same : front ++ mark :: rest = other ++ next :: after) :
    front = other ∧ mark = next ∧ rest = after := by
  induction front generalizing other with
  | nil =>
    cases other with
    | nil => exact ⟨rfl, List.cons.inj same⟩
    | cons char others =>
      exact absurd (List.cons.inj same).1 (Ne.symm (List.ne_of_not_mem_cons alsoFree).symm)
  | cons char others ih =>
    cases other with
    | nil => exact absurd (List.cons.inj same).1.symm (List.ne_of_not_mem_cons free)
    | cons char' others' =>
      obtain ⟨head, tail⟩ := List.cons.inj same
      obtain ⟨front, back⟩ := ih (List.not_mem_of_not_mem_cons free)
        (List.not_mem_of_not_mem_cons alsoFree) tail
      exact ⟨by rw [head, front], back⟩

/-- A text without a mark has no last place of it. -/
theorem lastPlace_of_not_mem {mark : Char} {text : Text} (free : mark ∉ text) :
    lastPlace [mark] text = none := by
  induction text with
  | nil => rfl
  | cons char rest ih =>
    rw [List.mem_cons, not_or] at free
    simp [lastPlace, ih free.2, free.1]

/-- The last place of a mark is the one behind which it does not occur. -/
theorem lastPlace_append {mark : Char} {back : Text} (free : mark ∉ back) (front : Text) :
    lastPlace [mark] (front ++ mark :: back) = some front.length := by
  -- Whatever stands in front, the place behind it wins.
  induction front with
  | nil => simp [lastPlace, lastPlace_of_not_mem free]
  | cons char rest ih => simp [lastPlace, ih]

/-- What stands around the last mark of a text is told by the text. -/
theorem append_cons_inj_of_last {front other back after : Text} {mark : Char} (free : mark ∉ back)
    (alsoFree : mark ∉ after) (same : front ++ mark :: back = other ++ mark :: after) :
    front = other ∧ back = after := by
  have place := lastPlace_append free front
  rw [same, lastPlace_append alsoFree, Option.some.injEq] at place
  obtain ⟨fronts, backs⟩ := List.append_inj same place.symm
  exact ⟨fronts, (List.cons.inj backs).2⟩

/-- A mark that occurs in a text has a last place there. -/
theorem exists_last_split {mark : Char} {text : Text} (occurs : mark ∈ text) :
    ∃ front back, text = front ++ mark :: back ∧ mark ∉ back := by
  -- The last place is the first one from the other end.
  obtain ⟨back, front, split, free⟩ :=
    List.eq_append_cons_of_mem (List.mem_reverse.mpr occurs)
  refine ⟨front.reverse, back.reverse, ?_, by simpa using free⟩
  rw [← List.reverse_reverse text, split]
  simp

end Mangling
