import Mangling.Proofs.Encoding.PointerType

/-! Longer runs of spaces in a spelling leave its base as it is, and mostly its qualifiers as well. -/

namespace Mangling

/-- A text is widened by lengthening runs of spaces that are there already, one space at a time. -/
inductive Widens (text : Text) : Text → Prop where
  | same : Widens text text
  | longer (front back : Text) : Widens text (front ++ ' ' :: back) →
      Widens text (front ++ ' ' :: ' ' :: back)

/-- Of a longer run the base has no trace. -/
theorem baseOf_double (front back : Text) :
    baseOf (front ++ ' ' :: ' ' :: back) = baseOf (front ++ ' ' :: back) := by
  have unspaced := not_mem_constWord.1
  have kept : ∀ text : Text, (' ' :: text).filter (· != '*') = ' ' :: text.filter (· != '*') :=
    fun text => List.filter_cons_of_pos (by decide)
  rw [baseOf, baseOf, eraseFully_append_cons unspaced, eraseFully_cons unspaced,
    eraseFully_append_cons unspaced, List.filter_append, List.filter_append, kept, kept,
    collapseSpaces_double]

/-- Erasing a longer run leaves the same codes behind, unless the base has both a space and the letter of
constness. -/
theorem readQualifiers_double {base : Text} (unstarred : '*' ∉ base)
    (clear : ' ' ∉ base ∨ 'c' ∉ base) (front back : Text) :
    readQualifiers (eraseFully base (front ++ ' ' :: ' ' :: back)) =
      readQualifiers (eraseFully base (front ++ ' ' :: back)) := by
  have unread : ∀ text, (' ' :: text).filterMap qualifierOf = text.filterMap qualifierOf :=
    fun text => List.filterMap_cons_none rfl
  simp only [readQualifiers, List.filterMap_reverse]
  congr 1
  rcases clear with unspaced | unlettered
  · -- The base is erased on each side of the spaces by itself.
    rw [eraseFully_append_cons unspaced, eraseFully_cons unspaced, eraseFully_append_cons unspaced,
      List.filterMap_append, List.filterMap_append, unread]
  · -- Nothing that is erased would be read.
    have passed := filterMap_qualifierOf_of_not_mem unlettered unstarred
    rw [filterMap_eraseFully passed, filterMap_eraseFully passed, List.filterMap_append,
      List.filterMap_append, unread]

/-- A wider spelling has the same base, and the same qualifiers unless the base has both a space and the
letter of constness. -/
theorem Widens.spelled {spelling wider : Text} (widened : Widens spelling wider) :
    baseOf wider = baseOf spelling ∧ (' ' ∉ baseOf spelling ∨ 'c' ∉ baseOf spelling →
      readQualifiers (remnantOf wider) = readQualifiers (remnantOf spelling)) := by
  induction widened with
  | same => exact ⟨rfl, fun _ => rfl⟩
  | longer front back _ ih =>
    obtain ⟨base, codes⟩ := ih
    have based : baseOf (front ++ ' ' :: ' ' :: back) = baseOf spelling :=
      (baseOf_double front back).trans base
    refine ⟨based, fun clear => ?_⟩
    rw [← codes clear, remnantOf, remnantOf, based, base]
    exact readQualifiers_double (isTidy_baseOf spelling).unstarred clear front back

/-- A tidy text is not found in itself with one of its spaces doubled. -/
theorem IsTidy.not_occurs_double {front back : Text} (tidy : IsTidy (front ++ ' ' :: back)) :
    ¬front ++ ' ' :: back <:+: front ++ ' ' :: ' ' :: back := by
  intro occurs
  have single := tidy.single
  cases front with
  | nil => exact tidy.leading rfl
  | cons first rest =>
    rw [List.cons_append, List.cons_append] at occurs
    rcases List.infix_cons_iff.mp occurs with whole | shifted
    · -- In the place of the text itself, what is behind the space would begin with a space.
      rw [List.cons_prefix_cons, List.prefix_append_right_inj, List.cons_prefix_cons] at whole
      cases back with
      | nil => exact tidy.trailing List.getLast?_concat
      | cons next others =>
        obtain ⟨rfl, _⟩ := List.cons_prefix_cons.mp whole.2.2
        exact single ⟨first :: rest, others, by simp⟩
    · have same := shifted.eq_of_length (by simp; omega)
      rw [List.cons_append, same] at single
      exact single ⟨rest, back, by simp⟩

/-- A wider spelling describes a parameter with the same base, and with the same qualifiers unless the
base has both a space and the letter of constness. -/
theorem Parameter.ofSpelling_widened {spelling wider : Text} (widened : Widens spelling wider) :
    ∃ parameter other, Parameter.ofSpelling spelling = .ok parameter ∧
      Parameter.ofSpelling wider = .ok other ∧ other.base = parameter.base ∧
      (' ' ∉ parameter.base ∨ 'c' ∉ parameter.base → other.qualifiers = parameter.qualifiers) := by
  obtain ⟨base, codes⟩ := widened.spelled
  refine ⟨_, _, ofSpelling_eq spelling, ofSpelling_eq wider, base, fun clear => ?_⟩
  dsimp only
  rw [codes clear]

/-- Extra spaces in front of a constant base and inside it are of no account. -/
theorem Parameter.ofSpelling_widened_long :
    Widens "const unsigned long*".toList "const  unsigned   long*".toList ∧
      ∃ parameter other, Parameter.ofSpelling "const unsigned long*".toList = .ok parameter ∧
        Parameter.ofSpelling "const  unsigned   long*".toList = .ok other ∧
        other.base = parameter.base ∧ other.qualifiers = parameter.qualifiers := by
  have widened : Widens "const unsigned long*".toList "const  unsigned   long*".toList :=
    (((Widens.same).longer "const".toList "unsigned long*".toList).longer
      "const  unsigned".toList "long*".toList).longer "const  unsigned".toList " long*".toList
  obtain ⟨parameter, other, read, readWider, base, codes⟩ := ofSpelling_widened widened
  refine ⟨widened, parameter, other, read, readWider, base, codes (Or.inr ?_)⟩
  rw [ofSpelling_eq, Except.ok.injEq] at read
  rw [← read]
  decide

/-- Two spaces in a base that is spelled with one bring constness about which was not spelled. -/
theorem Parameter.ofSpelling_widened_differs :
    Widens "unsigned char*".toList "unsigned  char*".toList ∧
      Parameter.ofSpelling "unsigned char*".toList = .ok
        { spelling := "unsigned char*".toList, base := "unsigned char".toList, qualifiers := ['P'] } ∧
      Parameter.ofSpelling "unsigned  char*".toList = .ok
        { spelling := "unsigned  char*".toList, base := "unsigned char".toList,
          qualifiers := ['P', 'K'] } :=
  ⟨.longer "unsigned".toList "char*".toList .same,
    (ofSpelling_eq _).trans (congrArg Except.ok (by decide)),
    (ofSpelling_eq _).trans (congrArg Except.ok (by decide))⟩

/-- Wherever the base of a pointer has both a space and the letter of constness, some wider spelling
makes other qualifiers of the pointer. -/
theorem Parameter.exists_ofSpelling_ne {base : Text} (tidy : IsTidy base)
    (plain : ¬constWord <:+: base) (spaced : ' ' ∈ base) (lettered : 'c' ∈ base) :
    ∃ wider parameter other, Widens (base ++ ['*']) wider ∧
      Parameter.ofSpelling (base ++ ['*']) = .ok parameter ∧
      Parameter.ofSpelling wider = .ok other ∧ parameter.base = base ∧ other.base = base ∧
      parameter.qualifiers = ['P'] ∧ other.qualifiers ≠ ['P'] := by
  have named : base ≠ [] := List.ne_nil_of_mem spaced
  let type : PointerType := { base, named, tidy, place := .nowhere, pointers := [false] }
  have spelled : type.spelling = base ++ ['*'] := rfl
  have short : base ∉ constStarts := by
    have single : ∀ start ∈ constStarts, ' ' ∉ start := by decide
    exact fun start => single base start spaced
  have based : baseOf (base ++ ['*']) = base := spelled ▸ type.baseOf_spelling_eq_iff.mpr plain
  have codes : (readQualifiers (remnantOf (base ++ ['*']))).dropWhile (· == 'K') = ['P'] := by
    rw [← spelled, type.dropWhile_readQualifiers plain, if_neg short]
    rfl
  -- With its space doubled the base is not found, and its letters stay behind.
  obtain ⟨front, back, rfl⟩ := List.append_of_mem spaced
  let wider := front ++ ' ' :: ' ' :: back ++ ['*']
  have widened : Widens (front ++ ' ' :: back ++ ['*']) wider := by
    have longer := Widens.longer front (back ++ ['*']) .same
    simpa [wider] using longer
  have basedWider : baseOf wider = front ++ ' ' :: back := widened.spelled.1.trans based
  have left : remnantOf wider = front ++ ' ' :: ' ' :: back ++ ['*'] := by
    rw [remnantOf, basedWider, eraseFully_append_cons tidy.unstarred,
      eraseFully_of_not_occurs tidy.not_occurs_double, eraseFully_nil]
  have const : 'K' ∈ (front ++ ' ' :: ' ' :: back).reverse.filterMap qualifierOf := by
    refine List.mem_filterMap.mpr ⟨'c', ?_, rfl⟩
    simpa [or_comm] using lettered
  have star : qualifierOf '*' = some 'P' := rfl
  have read : (readQualifiers (remnantOf wider)).dropWhile (· == 'K') =
      'P' :: (front ++ ' ' :: ' ' :: back).reverse.filterMap qualifierOf := by
    rw [left, readQualifiers, List.reverse_concat, List.filterMap_cons_some star]
    exact List.dropWhile_cons_of_neg (by decide)
  refine ⟨wider, _, _, widened, ofSpelling_eq _, ofSpelling_eq _, based, basedWider, codes, ?_⟩
  dsimp only
  rw [read]
  intro same
  rw [(List.cons.inj same).2] at const
  exact absurd const (by simp)

end Mangling
