import Mangling.Proofs.Text.Erased
import Mangling.Text.Blank
import Mathlib.Data.List.TakeWhile

/-! Tidy texts, in which no pointer stands and every space is the only one between two words. -/

namespace Mangling

/-- A text without stars and without superfluous spaces. -/
structure IsTidy (text : Text) : Prop where
  unstarred : '*' ∉ text
  single : ¬[' ', ' '] <:+: text
  leading : text.head? ≠ some ' '
  trailing : text.getLast? ≠ some ' '

instance (text : Text) : Decidable (IsTidy text) :=
  decidable_of_iff ('*' ∉ text ∧ ¬occursIn [' ', ' '] text = true ∧ text.head? ≠ some ' ' ∧
      text.getLast? ≠ some ' ')
    ⟨fun ⟨unstarred, single, leading, trailing⟩ =>
      { unstarred, single := fun adjacent => single (occursIn_iff.mpr adjacent), leading, trailing },
     fun tidy => ⟨tidy.unstarred, fun adjacent => tidy.single (occursIn_iff.mp adjacent),
      tidy.leading, tidy.trailing⟩⟩

/-- Of two spaces the first gives way. -/
theorem collapseSpaces_space_space (rest : Text) :
    collapseSpaces (' ' :: ' ' :: rest) = collapseSpaces (' ' :: rest) := by
  rw [collapseSpaces]
  exact if_pos rfl

/-- A character stays unless it is a space with another one behind it. -/
theorem collapseSpaces_cons {char : Char} {rest : Text}
    (alone : char = ' ' → rest.head? ≠ some ' ') :
    collapseSpaces (char :: rest) = char :: collapseSpaces rest := by
  rw [collapseSpaces, if_neg]
  simpa using alone

/-- Shrinking meets a space with another one behind it, or a character that stays. -/
@[elab_as_elim]
theorem collapseInduction {motive : Text → Prop} (nil : motive [])
    (run : ∀ rest, motive (' ' :: rest) → motive (' ' :: ' ' :: rest))
    (kept : ∀ char rest, (char = ' ' → rest.head? ≠ some ' ') → motive rest →
      motive (char :: rest))
    (text : Text) : motive text := by
  induction text with
  | nil => exact nil
  | cons char rest ih =>
    by_cases alone : char = ' ' → rest.head? ≠ some ' '
    · exact kept char rest alone ih
    · obtain ⟨rfl, next⟩ := Classical.not_imp.mp alone
      obtain ⟨behind, rfl⟩ := List.head?_eq_some_iff.mp (Classical.not_not.mp next)
      exact run behind ih

/-- Trimming leaves a part of a text. -/
theorem trim_sublist (drops : Char → Bool) (text : Text) : (trim drops text).Sublist text := by
  have front : (text.dropWhile drops).Sublist text := List.dropWhile_sublist drops
  have back : ((text.dropWhile drops).reverse.dropWhile drops).reverse.Sublist
      (text.dropWhile drops) := by
    rw [← List.reverse_sublist, List.reverse_reverse]
    exact List.dropWhile_sublist drops
  exact back.trans front

/-- Shrinking runs of spaces leaves a part of a text. -/
theorem collapseSpaces_sublist (text : Text) : (collapseSpaces text).Sublist text := by
  induction text using collapseInduction with
  | nil => exact List.Sublist.refl _
  | run rest ih =>
    rw [collapseSpaces_space_space]
    exact ih.cons ' '
  | kept char rest alone ih =>
    rw [collapseSpaces_cons alone]
    exact ih.cons_cons char

/-- What is not dropped is kept at the front. -/
theorem mem_dropWhile {drops : Char → Bool} {char : Char} (kept : drops char = false) {text : Text}
    (member : char ∈ text) : char ∈ text.dropWhile drops := by
  rw [← List.takeWhile_append_dropWhile (p := drops) (l := text)] at member
  rcases List.mem_append.mp member with front | back
  · have dropped := List.all_takeWhile (p := drops) (l := text)
    rw [List.all_eq_true] at dropped
    simp [dropped char front] at kept
  · exact back

/-- Trimming keeps what it does not drop. -/
theorem mem_trim {drops : Char → Bool} {char : Char} (kept : drops char = false) {text : Text}
    (member : char ∈ text) : char ∈ trim drops text := by
  rw [trim, List.mem_reverse]
  exact mem_dropWhile kept (List.mem_reverse.mpr (mem_dropWhile kept member))

/-- Trimming leaves nothing exactly of a text in which every character is blank. -/
theorem isEmpty_trimBlanks (text : Text) : (trimBlanks text).isEmpty = text.all isBlank := by
  rw [Bool.eq_iff_iff, List.isEmpty_iff, List.all_eq_true]
  constructor
  · intro nothing char member
    -- A character that is kept would be left.
    cases blank : isBlank char with
    | true => rfl
    | false =>
      have kept : char ∈ trimBlanks text := mem_trim blank member
      simp [nothing] at kept
  · intro blank
    rw [trimBlanks, trim, List.dropWhile_eq_nil_iff.mpr blank]
    rfl

/-- Shrinking runs of spaces keeps every other character. -/
theorem mem_collapseSpaces {char : Char} (other : char ≠ ' ') {text : Text} (member : char ∈ text) :
    char ∈ collapseSpaces text := by
  induction text using collapseInduction with
  | nil => exact member
  | run rest ih =>
    rw [collapseSpaces_space_space]
    exact ih ((List.mem_cons.mp member).resolve_left other)
  | kept first rest alone ih =>
    rw [collapseSpaces_cons alone]
    exact List.mem_cons.mpr ((List.mem_cons.mp member).imp_right ih)

/-- Shrinking runs of spaces leaves the character in front. -/
theorem head?_collapseSpaces (text : Text) : (collapseSpaces text).head? = text.head? := by
  induction text using collapseInduction with
  | nil => rfl
  | run rest ih => rw [collapseSpaces_space_space, ih, List.head?_cons, List.head?_cons]
  | kept char rest alone _ => rw [collapseSpaces_cons alone, List.head?_cons, List.head?_cons]

/-- Behind shrinking no two spaces are adjacent. -/
theorem not_infix_collapseSpaces (text : Text) : ¬[' ', ' '] <:+: collapseSpaces text := by
  induction text using collapseInduction with
  | nil => simp [collapseSpaces]
  | run rest ih => rwa [collapseSpaces_space_space]
  | kept char rest alone ih =>
    rw [collapseSpaces_cons alone, List.infix_cons_iff, not_or]
    refine ⟨fun front => ?_, ih⟩
    obtain ⟨same, behind, split⟩ := List.cons_prefix_cons.mp front
    refine alone same.symm ?_
    rw [← head?_collapseSpaces, ← split]
    rfl

/-- Without adjacent spaces nothing shrinks. -/
theorem collapseSpaces_of_single {text : Text} (single : ¬[' ', ' '] <:+: text) :
    collapseSpaces text = text := by
  induction text using collapseInduction with
  | nil => rfl
  | run rest _ => exact absurd (List.infix_cons_iff.mpr (Or.inl (by simp))) single
  | kept char rest alone ih =>
    rw [List.infix_cons_iff, not_or] at single
    rw [collapseSpaces_cons alone, ih single.2]

/-- One space in a run is as good as two. -/
theorem collapseSpaces_double (front back : Text) :
    collapseSpaces (front ++ ' ' :: ' ' :: back) = collapseSpaces (front ++ ' ' :: back) := by
  induction front with
  | nil => exact collapseSpaces_space_space back
  | cons char rest ih =>
    have head : (rest ++ ' ' :: ' ' :: back).head? = (rest ++ ' ' :: back).head? := by
      cases rest <;> rfl
    rw [List.cons_append, List.cons_append, collapseSpaces, collapseSpaces, ih, head]

/-- A space at the end stays there, unless another one stands in front of it. -/
theorem collapseSpaces_concat (text : Text) :
    collapseSpaces (text ++ [' ']) = collapseSpaces text ∨
      collapseSpaces (text ++ [' ']) = collapseSpaces text ++ [' '] := by
  induction text using collapseInduction with
  | nil => exact Or.inr rfl
  | run rest ih =>
    rw [List.cons_append, List.cons_append, collapseSpaces_space_space, collapseSpaces_space_space]
    exact ih
  | kept char rest alone ih =>
    cases rest with
    | nil =>
      by_cases space : char = ' '
      · exact Or.inl (by rw [space]; rfl)
      · exact Or.inr (by simp [space, collapseSpaces])
    | cons next behind =>
      -- The character behind is the same with the space at the end.
      have still : char = ' ' → (next :: behind ++ [' ']).head? ≠ some ' ' := by simpa using alone
      rw [List.cons_append, collapseSpaces_cons still, collapseSpaces_cons alone]
      exact ih.imp (congrArg _) (congrArg _)

/-- Trimming drops a space in front. -/
theorem trimSpaces_cons (text : Text) : trimSpaces (' ' :: text) = trimSpaces text := by
  simp [trimSpaces, trim]

/-- Trimming drops a space at the end. -/
theorem trimSpaces_concat (text : Text) : trimSpaces (text ++ [' ']) = trimSpaces text := by
  rw [trimSpaces, trimSpaces, trim, trim, List.dropWhile_append]
  split
  next blank => simp [List.isEmpty_iff.mp blank]
  next => simp

/-- Trimming leaves a text without outer spaces as it is. -/
theorem trimSpaces_of_outer {text : Text} (leading : text.head? ≠ some ' ')
    (trailing : text.getLast? ≠ some ' ') : trimSpaces text = text := by
  have keep : ∀ {left : Text}, left.head? ≠ some ' ' → left.dropWhile (· == ' ') = left := by
    intro left other
    cases left with
    | nil => rfl
    | cons char rest => exact List.dropWhile_cons_of_neg (by simpa using other)
  rw [trimSpaces, trim, keep leading, keep (by simpa using trailing), List.reverse_reverse]

/-- Spaces around a text are superfluous. -/
theorem trimSpaces_collapseSpaces_cons (text : Text) :
    trimSpaces (collapseSpaces (' ' :: text)) = trimSpaces (collapseSpaces text) := by
  rw [collapseSpaces]
  split
  · rfl
  · exact trimSpaces_cons _

/-- Spaces behind a text are superfluous. -/
theorem trimSpaces_collapseSpaces_append (text : Text) {spaces : Text}
    (blank : ∀ char ∈ spaces, char = ' ') :
    trimSpaces (collapseSpaces (text ++ spaces)) = trimSpaces (collapseSpaces text) := by
  induction spaces generalizing text with
  | nil => rw [List.append_nil]
  | cons space spaces ih =>
    obtain ⟨rfl, others⟩ := List.forall_mem_cons.mp blank
    rw [← List.singleton_append, ← List.append_assoc, ih _ others]
    rcases collapseSpaces_concat text with same | longer
    · rw [same]
    · rw [longer, trimSpaces_concat]

/-- Trimming takes away from the end only what is left of a text without its spaces in front. -/
theorem trimSpaces_isPrefix (text : Text) : trimSpaces text <+: text.dropWhile (· == ' ') := by
  rw [← List.reverse_suffix, trimSpaces, trim, List.reverse_reverse]
  exact List.dropWhile_suffix _

/-- Dropping the spaces in front leaves none there. -/
theorem head?_dropWhile_space (text : Text) : (text.dropWhile (· == ' ')).head? ≠ some ' ' := by
  intro same
  have other := List.head?_dropWhile_not (· == ' ') text
  simp [same] at other

/-- Trimming and shrinking make a text without stars tidy. -/
theorem isTidy_trimSpaces_collapseSpaces {text : Text} (unstarred : '*' ∉ text) :
    IsTidy (trimSpaces (collapseSpaces text)) := by
  have within : trimSpaces (collapseSpaces text) <:+: collapseSpaces text :=
    (trimSpaces_isPrefix _).isInfix.trans (List.dropWhile_suffix _).isInfix
  refine { unstarred := ?_, single := ?_, leading := ?_, trailing := ?_ }
  · exact fun member => unstarred ((collapseSpaces_sublist text).subset (within.subset member))
  · exact fun adjacent => not_infix_collapseSpaces text (adjacent.trans within)
  · intro space
    obtain ⟨rest, front⟩ := trimSpaces_isPrefix (collapseSpaces text)
    obtain ⟨others, spelled⟩ := List.head?_eq_some_iff.mp space
    apply head?_dropWhile_space (collapseSpaces text)
    rw [← front, spelled]
    rfl
  · rw [trimSpaces, trim, List.getLast?_reverse]
    exact head?_dropWhile_space _

/-- What is tidy is not changed by shrinking and trimming. -/
theorem IsTidy.trimSpaces_collapseSpaces {text : Text} (tidy : IsTidy text) :
    trimSpaces (collapseSpaces text) = text := by
  rw [collapseSpaces_of_single tidy.single, trimSpaces_of_outer tidy.leading tidy.trailing]

end Mangling
