import Mangling.Encoding.Parameter
import Mangling.Proofs.Text.Tidy

/-! A base is a tidy part of its spelling, and lacks only characters of qualifiers. Of these the
pointers are all kept, as codes around the base. -/

namespace Mangling

/-- The base of a spelling is a part of it. -/
theorem baseOf_sublist (spelling : Text) : (baseOf spelling).Sublist spelling := by
  rw [baseOf, trimSpaces]
  calc
    (trim (· == ' ') (collapseSpaces ((eraseFully constWord spelling).filter (· != '*')))).Sublist
        (collapseSpaces ((eraseFully constWord spelling).filter (· != '*'))) := trim_sublist _ _
    List.Sublist _ ((eraseFully constWord spelling).filter (· != '*')) := collapseSpaces_sublist _
    List.Sublist _ (eraseFully constWord spelling) := List.filter_sublist
    List.Sublist _ spelling := eraseFully_sublist _ _

/-- A character that belongs neither to a qualifier nor between words is kept in the base. -/
theorem mem_baseOf {char : Char} (other : char ∉ constWord) (unstarred : char ≠ '*')
    (unspaced : char ≠ ' ') {spelling : Text} (member : char ∈ spelling) :
    char ∈ baseOf spelling := by
  have filtered : char ∈ (eraseFully constWord spelling).filter (· != '*') := by
    refine List.mem_filter.mpr ⟨mem_eraseFully other member, ?_⟩
    simpa using unstarred
  exact mem_trim (by simpa using unspaced) (mem_collapseSpaces unspaced filtered)

/-- Every base is tidy. -/
theorem isTidy_baseOf (spelling : Text) : IsTidy (baseOf spelling) := by
  refine isTidy_trimSpaces_collapseSpaces fun member => ?_
  exact absurd (List.mem_filter.mp member).2 (by decide)

/-- Nothing is read from a base without the letter of constness and without stars. -/
theorem filterMap_qualifierOf_of_not_mem {base : Text} (unlettered : 'c' ∉ base)
    (unstarred : '*' ∉ base) : ∀ char ∈ base, qualifierOf char = none := by
  intro char member
  have notConst : char ≠ 'c' := ne_of_mem_of_not_mem member unlettered
  have notPointer : char ≠ '*' := ne_of_mem_of_not_mem member unstarred
  simp [qualifierOf, notConst, notPointer]

/-- The code of a pointer is read from every star, and from nothing else. -/
theorem count_readQualifiers (remnant : Text) :
    (readQualifiers remnant).count 'P' = remnant.count '*' := by
  have starred : ∀ char, (qualifierOf char == some 'P') = (char == '*') := by
    intro char
    by_cases lettered : char = 'c'
    · rw [lettered]
      decide
    · by_cases star : char = '*' <;> simp [qualifierOf, lettered, star, Qualifier.code]
  rw [readQualifiers, List.count_filterMap, List.countP_reverse, List.count]
  exact List.countP_congr fun char _ => by rw [starred]

/-- Among the codes that are dropped in front there is none of a pointer. -/
theorem count_dropWhile_const (codes : Text) :
    (codes.dropWhile (· == 'K')).count 'P' = codes.count 'P' := by
  have dropped : (codes.takeWhile (· == 'K')).count 'P' = 0 := by
    have each := List.all_eq_true.mp (List.all_takeWhile (p := (· == 'K')) (l := codes))
    exact List.count_eq_zero.mpr fun member => absurd (each 'P' member) (by decide)
  have split := congrArg (List.count 'P')
    (List.takeWhile_append_dropWhile (p := (· == 'K')) (l := codes))
  rwa [List.count_append, dropped, Nat.zero_add] at split

/-- Behind the codes that are dropped in front there is one of a pointer, if there is any. -/
theorem head?_dropWhile_const {codes : Text} (known : ∀ code ∈ codes, code = 'K' ∨ code = 'P') :
    ∀ code ∈ (codes.dropWhile (· == 'K')).head?, code = 'P' := by
  intro code first
  have stays := List.head?_dropWhile_not (· == 'K') codes
  rw [Option.mem_def.mp first] at stays
  have member := (List.dropWhile_sublist _).subset (List.mem_of_mem_head? first)
  exact (known code member).resolve_left (by simpa using stays)

/-- Whatever the spelling is, it describes a parameter with a tidy base, around which there is a
pointer for every star, on the outside if there is any qualifier at all, and otherwise only
constness. -/
theorem Parameter.ofSpelling_pointers (spelling : Text) :
    ∃ parameter, Parameter.ofSpelling spelling = .ok parameter ∧
      (∀ code ∈ parameter.qualifiers, code = 'P' ∨ code = 'K') ∧
      (∀ code ∈ parameter.qualifiers.head?, code = 'P') ∧
      parameter.qualifiers.count 'P' = spelling.count '*' ∧
      IsTidy parameter.base := by
  have tidy := isTidy_baseOf spelling
  let codes := readQualifiers (remnantOf spelling)
  have known : ∀ code ∈ codes, code = 'K' ∨ code = 'P' := fun _ => mem_readQualifiers
  refine ⟨_, ofSpelling_eq spelling, ?_, head?_dropWhile_const known, ?_, tidy⟩
  · exact fun code member => (known code ((List.dropWhile_sublist _).subset member)).symm
  · -- No star is lost with the base, which has none.
    calc
      (codes.dropWhile (· == 'K')).count 'P' = codes.count 'P' := count_dropWhile_const codes
      _ = (remnantOf spelling).count '*' := count_readQualifiers _
      _ = spelling.count '*' := count_eraseFully tidy.unstarred spelling

end Mangling
