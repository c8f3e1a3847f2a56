import Mangling.Proofs.Encoding.Spelling

/-! Which types, spelled as a base with its constness and its pointers, are read as they were meant. -/

namespace Mangling

/-- Where the constness of a base is spelled. -/
inductive ConstPlace where
  | nowhere
  | before
  | behind
  deriving DecidableEq

/-- A tidy base with its constness, and the pointers around it from the innermost outwards, each of them
constant or not. -/
structure PointerType where
  base : Text
  named : base ≠ []
  tidy : IsTidy base
  place : ConstPlace
  pointers : List Bool

/-- A base together with its constness as they are spelled. -/
def ConstPlace.spelling (base : Text) : ConstPlace → Text
  | .nowhere => base
  | .before => constWord ++ ' ' :: base
  | .behind => base ++ ' ' :: constWord

/-- The codes of the constness of a base. -/
def ConstPlace.codes : ConstPlace → Text
  | .nowhere => []
  -- The place makes no difference to the meaning.
  | .before => ['K']
  | .behind => ['K']

/-- What is spelled behind the star of a pointer. -/
def pointerTail (isConst : Bool) : Text :=
  if isConst then ' ' :: constWord else []

/-- The codes of the constness of a pointer. -/
def pointerCodes (isConst : Bool) : Text :=
  if isConst then ['K'] else []

/-- A type as it is spelled. -/
def PointerType.spelling (type : PointerType) : Text :=
  type.place.spelling type.base ++ type.pointers.flatMap fun isConst => '*' :: pointerTail isConst

/-- The codes of everything that is spelled around the base, from the outermost pointer inwards. -/
def PointerType.codes (type : PointerType) : Text :=
  -- The constness of a pointer is outside of the pointer.
  (type.pointers.reverse.flatMap fun isConst => pointerCodes isConst ++ ['P']) ++ type.place.codes

/-- The qualifiers that are meant: constness of the parameter itself is no part of its type. -/
def PointerType.qualifiers (type : PointerType) : Text :=
  type.codes.dropWhile (· == 'K')

/-- A base with a space and the letter of constness, constness on all sides, and two pointers. -/
example : ∃ type : PointerType, type.spelling = "const unsigned char* const*".toList ∧
    type.qualifiers = "PKPK".toList :=
  ⟨{ base := "unsigned char".toList, named := by decide, tidy := by decide, place := .before,
     pointers := [true, false] }, by decide, by decide⟩

/-- What the word of constness begins with, short of the whole word. -/
def constStarts : List Text :=
  ["c", "co", "con", "cons"].map String.toList

/-- The word of constness has neither spaces nor stars. -/
theorem not_mem_constWord : ' ' ∉ constWord ∧ '*' ∉ constWord := by
  decide

/-- Constness adds no star to a base. -/
theorem ConstPlace.not_mem_spelling (place : ConstPlace) {base : Text} (unstarred : '*' ∉ base) :
    '*' ∉ place.spelling base := by
  have word := not_mem_constWord.2
  cases place with
  | nowhere => exact unstarred
  | before => simp [spelling, word, unstarred]
  | behind => simp [spelling, word, unstarred]

/-- Erasing a pattern without stars works by itself on the base and on what is behind each star. -/
theorem PointerType.eraseFully_spelling (type : PointerType) {pattern : Text}
    (unstarred : '*' ∉ pattern) :
    eraseFully pattern type.spelling =
      eraseFully pattern (type.place.spelling type.base) ++
        type.pointers.flatMap fun isConst => '*' :: eraseFully pattern (pointerTail isConst) := by
  have apart := eraseFully_flatMap_cons unstarred (type.place.spelling type.base)
    (type.pointers.map pointerTail)
  rwa [List.flatMap_map, List.flatMap_map] at apart

/-- Without the word of constness only spaces are left of it, which are superfluous. -/
theorem ConstPlace.trimSpaces_spelling (place : ConstPlace) (base : Text) :
    trimSpaces (collapseSpaces (eraseFully constWord (place.spelling base))) =
      trimSpaces (collapseSpaces (eraseFully constWord base)) := by
  have unspaced := not_mem_constWord.1
  cases place with
  | nowhere => rfl
  | before =>
    rw [spelling, eraseFully_append_cons unspaced, eraseFully_self, List.nil_append,
      trimSpaces_collapseSpaces_cons]
  | behind =>
    rw [spelling, eraseFully_append_cons unspaced, eraseFully_self,
      trimSpaces_collapseSpaces_append _ (by simp)]

/-- Without the word of constness only a space is left behind a star. -/
theorem eq_space_of_mem_pointerTail {isConst : Bool} {char : Char}
    (member : char ∈ eraseFully constWord (pointerTail isConst)) : char = ' ' := by
  cases isConst with
  | false => exact absurd ((eraseFully_sublist _ _).subset member) (List.not_mem_nil)
  | true =>
    have left : eraseFully constWord (pointerTail true) = [' '] := by
      rw [pointerTail, if_pos rfl, eraseFully_cons not_mem_constWord.1, eraseFully_self]
    exact List.mem_singleton.mp (left ▸ member)

/-- The base that is read is the spelled one without the word of constness and superfluous spaces. -/
theorem PointerType.baseOf_spelling (type : PointerType) :
    baseOf type.spelling = trimSpaces (collapseSpaces (eraseFully constWord type.base)) := by
  have front : ∀ char ∈ eraseFully constWord (type.place.spelling type.base),
      (char != '*') = true := by
    intro char member
    have unstarred := type.place.not_mem_spelling type.tidy.unstarred
    have other := ne_of_mem_of_not_mem ((eraseFully_sublist _ _).subset member) unstarred
    simpa using other
  -- Of the pointers only stars and spaces are left, and the stars are dropped.
  have blank : ∀ char ∈ (type.pointers.flatMap fun isConst =>
      '*' :: eraseFully constWord (pointerTail isConst)).filter (· != '*'), char = ' ' := by
    intro char member
    obtain ⟨inside, other⟩ := List.mem_filter.mp member
    obtain ⟨isConst, _, among⟩ := List.mem_flatMap.mp inside
    rcases List.mem_cons.mp among with star | behind
    · simp [star] at other
    · exact eq_space_of_mem_pointerTail behind
  rw [baseOf, type.eraseFully_spelling not_mem_constWord.2, List.filter_append,
    List.filter_eq_self.mpr front, trimSpaces_collapseSpaces_append _ blank,
    ConstPlace.trimSpaces_spelling]

/-- The base is read as it was spelled exactly when it does not hold the word of constness. -/
theorem PointerType.baseOf_spelling_eq_iff (type : PointerType) :
    baseOf type.spelling = type.base ↔ ¬constWord <:+: type.base := by
  rw [baseOf_spelling]
  constructor
  · -- Otherwise what is read would be shorter.
    intro same occurs
    have shorter := length_eraseFully_lt (by decide) occurs
    have rest := ((trim_sublist (· == ' ') _).trans
      (collapseSpaces_sublist (eraseFully constWord type.base))).length_le
    rw [← trimSpaces, same] at rest
    omega
  · intro absent
    rw [eraseFully_of_not_occurs absent, type.tidy.trimSpaces_collapseSpaces]

/-- A base that the word of constness begins with is short of it, unless the base holds the word. -/
theorem mem_constStarts {base : Text} (named : base ≠ []) (plain : ¬constWord <:+: base)
    (front : base <+: constWord) : base ∈ constStarts := by
  have each : ∀ count ≤ constWord.length, constWord.take count = [] ∨
      constWord.take count ∈ constStarts ∨ constWord.take count = constWord := by
    decide
  have taken := each base.length front.length_le
  rw [← List.prefix_iff_eq_take.mp front] at taken
  rcases taken with none | short | whole
  · exact absurd none named
  · exact short
  · exact absurd (whole ▸ List.infix_refl _) plain

section Lettered

variable {base : Text} (named : base ≠ []) (tidy : IsTidy base) (plain : ¬constWord <:+: base)
  (lettered : 'c' ∈ base) (long : base ∉ constStarts)

include named plain lettered long

/-- The word of constness does not hold the base, since only its first letter is the one in question. -/
theorem not_occurs_constWord : ¬base <:+: constWord := by
  intro occurs
  rcases List.infix_cons_iff.mp occurs with front | behind
  · exact long (mem_constStarts named plain front)
  · exact absurd (behind.subset lettered) (by decide)

include tidy

/-- A space in front of the word makes no occurrence of the base. -/
theorem not_occurs_space_constWord : ¬base <:+: ' ' :: constWord := by
  intro occurs
  rcases List.infix_cons_iff.mp occurs with front | inside
  · obtain ⟨first, rest, rfl⟩ := List.exists_cons_of_ne_nil named
    exact tidy.leading (congrArg some (List.cons_prefix_cons.mp front).1)
  · exact not_occurs_constWord named plain lettered long inside

/-- A space behind the word makes no occurrence of the base. -/
theorem not_occurs_constWord_space : ¬base <:+: constWord ++ [' '] := by
  intro occurs
  rcases List.infix_concat_iff.mp occurs with back | inside
  · obtain ⟨rest, rfl, _⟩ := (List.suffix_concat_iff.mp back).resolve_left named
    exact tidy.trailing List.getLast?_concat
  · exact not_occurs_constWord named plain lettered long inside

/-- Constness in front of the base is not mistaken for the base. -/
theorem eraseFully_before :
    eraseFully base (constWord ++ ' ' :: base) = constWord ++ [' '] := by
  have apart : ∀ rest, rest <:+ constWord ++ [' '] → rest ≠ [] → ¬base <+: rest ++ base := by
    intro rest back nonempty front
    -- An occurrence that reaches into the base repeats what is in front of the base.
    have letter := mem_of_prefix_append nonempty front lettered
    have whole : rest = constWord ++ [' '] := by
      rcases List.suffix_cons_iff.mp back with same | later
      · exact same
      · exact absurd (later.subset letter) (by decide)
    rw [whole, List.append_assoc] at front
    rcases List.prefix_or_prefix_of_prefix front (List.prefix_append constWord _) with
      short | holds
    · exact long (mem_constStarts named plain short)
    · exact plain holds.isInfix
  have pass : eraseOnce base (constWord ++ ' ' :: base) = constWord ++ [' '] := by
    rw [← List.singleton_append, ← List.append_assoc, eraseOnce_append apart,
      eraseOnce_self named, List.append_nil]
  rw [← eraseFully_eraseOnce named, pass]
  exact eraseFully_of_not_occurs (not_occurs_constWord_space named tidy plain lettered long)

/-- Constness behind the base is not mistaken for the base. -/
theorem eraseFully_behind :
    eraseFully base (base ++ ' ' :: constWord) = ' ' :: constWord := by
  have absent := not_occurs_space_constWord named tidy plain lettered long
  rw [← eraseFully_eraseOnce named, eraseOnce_pattern named, eraseOnce_of_not_occurs absent,
    eraseFully_of_not_occurs absent]

end Lettered

/-- What is left of a base and its constness is read as the constness, unless the word begins with the
base. -/
theorem ConstPlace.filterMap_spelling (place : ConstPlace) {base : Text} (named : base ≠ [])
    (tidy : IsTidy base) (plain : ¬constWord <:+: base) (long : base ∉ constStarts) :
    (eraseFully base (place.spelling base)).filterMap qualifierOf = place.codes := by
  by_cases lettered : 'c' ∈ base
  · cases place with
    | nowhere => rw [spelling, eraseFully_self]; rfl
    | before => rw [spelling, eraseFully_before named tidy plain lettered long]; rfl
    | behind => rw [spelling, eraseFully_behind named tidy plain lettered long]; rfl
  · -- Whatever is erased of such a base, its constness is read as before.
    have unread := filterMap_qualifierOf_of_not_mem lettered tidy.unstarred
    have nothing : base.filterMap qualifierOf = [] := List.filterMap_eq_nil_iff.mpr unread
    have spaced : (' ' :: base).filterMap qualifierOf = [] := by
      rw [List.filterMap_cons_none rfl, nothing]
    rw [filterMap_eraseFully unread]
    cases place with
    | nowhere => exact nothing
    | before => rw [spelling, List.filterMap_append, spaced]; rfl
    | behind => rw [spelling, List.filterMap_append, nothing]; rfl

/-- What is left behind a star is read as the constness there, unless the word begins with the base. -/
theorem filterMap_pointerTail (isConst : Bool) {base : Text} (named : base ≠ [])
    (tidy : IsTidy base) (plain : ¬constWord <:+: base) (long : base ∉ constStarts) :
    (eraseFully base (pointerTail isConst)).filterMap qualifierOf = pointerCodes isConst := by
  by_cases lettered : 'c' ∈ base
  · cases isConst with
    | false => rw [pointerTail, if_neg (by decide), eraseFully_nil]; rfl
    | true =>
      have absent := not_occurs_space_constWord named tidy plain lettered long
      rw [pointerTail, if_pos rfl, eraseFully_of_not_occurs absent]
      rfl
  · rw [filterMap_eraseFully (filterMap_qualifierOf_of_not_mem lettered tidy.unstarred)]
    cases isConst <;> rfl

/-- A base that the word of constness begins with takes the letter out of every such word. -/
theorem filterMap_constStarts {base : Text} (short : base ∈ constStarts) :
    (∀ place : ConstPlace, (eraseFully base (place.spelling base)).filterMap qualifierOf = []) ∧
      ∀ isConst, (eraseFully base (pointerTail isConst)).filterMap qualifierOf = [] := by
  refine ⟨fun place => ?_, fun isConst => ?_⟩
  · cases place <;> (revert base; decide)
  · cases isConst <;> (revert base; decide)

/-- The codes that are read are those of what the base leaves of the spelling, from its end. -/
theorem PointerType.readQualifiers_remnantOf (type : PointerType)
    (plain : ¬constWord <:+: type.base) {around : Text} {behind : Bool → Text}
    (front : (eraseFully type.base (type.place.spelling type.base)).filterMap qualifierOf = around)
    (tails : ∀ isConst,
      (eraseFully type.base (pointerTail isConst)).filterMap qualifierOf = behind isConst) :
    readQualifiers (remnantOf type.spelling) =
      (type.pointers.reverse.flatMap fun isConst => (behind isConst).reverse ++ ['P']) ++
        around.reverse := by
  have starred : ∀ isConst, ('*' :: eraseFully type.base (pointerTail isConst)).filterMap qualifierOf =
      'P' :: behind isConst := by
    intro isConst
    rw [← tails isConst]
    rfl
  rw [remnantOf, type.baseOf_spelling_eq_iff.mpr plain, readQualifiers, List.filterMap_reverse,
    type.eraseFully_spelling type.tidy.unstarred, List.filterMap_append, front,
    List.filterMap_flatMap]
  simp only [starred, List.reverse_append, List.reverse_flatMap, Function.comp_def,
    List.reverse_cons]

/-- Codes without those of constness have none of them to drop in front. -/
theorem dropWhile_filter_codes (codes : Text) :
    (codes.filter (· != 'K')).dropWhile (· == 'K') =
      (codes.dropWhile (· == 'K')).filter (· != 'K') := by
  induction codes with
  | nil => rfl
  | cons code codes ih =>
    by_cases const : code = 'K'
    · simpa [const] using ih
    · simp [const]

/-- The qualifiers are read as they are meant, but a base that the word of constness begins with hides
all constness. -/
theorem PointerType.dropWhile_readQualifiers (type : PointerType)
    (plain : ¬constWord <:+: type.base) :
    (readQualifiers (remnantOf type.spelling)).dropWhile (· == 'K') =
      if type.base ∈ constStarts then type.qualifiers.filter (· != 'K') else type.qualifiers := by
  split
  next short =>
    obtain ⟨front, tails⟩ := filterMap_constStarts short
    rw [type.readQualifiers_remnantOf plain (front type.place) tails, qualifiers,
      ← dropWhile_filter_codes]
    congr 1
    have around : type.place.codes.filter (· != 'K') = [] := by cases type.place <;> rfl
    have pointer : ∀ isConst, (pointerCodes isConst ++ ['P']).filter (· != 'K') = ['P'] := by
      intro isConst
      cases isConst <;> rfl
    rw [codes, List.filter_append, List.filter_flatMap, around]
    simp only [pointer, List.reverse_nil, List.nil_append]
  next long =>
    have front := type.place.filterMap_spelling type.named type.tidy plain long
    have tails := fun isConst => filterMap_pointerTail isConst type.named type.tidy plain long
    have around : type.place.codes.reverse = type.place.codes := by cases type.place <;> rfl
    have pointer : ∀ isConst, (pointerCodes isConst).reverse = pointerCodes isConst := by
      intro isConst
      cases isConst <;> rfl
    rw [type.readQualifiers_remnantOf plain front tails, around]
    simp only [pointer]
    rfl

/-- A type is read as it was meant exactly when its base does not hold the word of constness, and when
the word does not begin with the base of a type in which constness counts. -/
theorem PointerType.ofSpelling_spelling_iff (type : PointerType) :
    (∃ parameter, Parameter.ofSpelling type.spelling = .ok parameter ∧
        parameter.base = type.base ∧ parameter.qualifiers = type.qualifiers) ↔
      ¬constWord <:+: type.base ∧ ¬(type.base ∈ constStarts ∧ 'K' ∈ type.qualifiers) := by
  have read := Parameter.ofSpelling_eq type.spelling
  constructor
  · rintro ⟨parameter, described, based, coded⟩
    rw [read, Except.ok.injEq] at described
    subst described
    have plain := type.baseOf_spelling_eq_iff.mp based
    refine ⟨plain, fun ⟨short, const⟩ => ?_⟩
    -- The constness that counts would be missing.
    rw [type.dropWhile_readQualifiers plain, if_pos short, List.filter_eq_self] at coded
    exact absurd (coded 'K' const) (by decide)
  · rintro ⟨plain, clear⟩
    refine ⟨_, read, type.baseOf_spelling_eq_iff.mpr plain, ?_⟩
    rw [type.dropWhile_readQualifiers plain]
    split
    next short =>
      refine List.filter_eq_self.mpr fun code member => ?_
      have other : code ≠ 'K' := ne_of_mem_of_not_mem member fun const => clear ⟨short, const⟩
      simpa using other
    next => rfl

/-- The letter of the word is erased together with the base. -/
example : baseOf "const con* const*".toList = "con".toList ∧
    readQualifiers (remnantOf "const con* const*".toList) = ['P', 'P'] := by
  decide

end Mangling
