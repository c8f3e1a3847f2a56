import Mangling.Proofs.Symbol.Accepted
import Mangling.Proofs.Symbol.Path
import Mangling.Proofs.Text.Erased

/-! Template arguments can be told from a symbol, unless one of them collides with a longer one. -/

namespace Mangling

/-- A text overlaps a longer one when one of the decimal length of the longer one and the source name
of the shorter one, which is its length and its text, begins the other. -/
def Overlaps (short long : Text) : Prop :=
  -- Either of the two may end before the other one does.
  short.length < long.length ∧
    (decimal long.length <+: sourceName short ∨ sourceName short <+: decimal long.length)

/-- An argument runs into a longer one when it overlaps it and another argument follows. -/
def RunsInto (short : Text) (following : List Text) (long : Text) : Prop :=
  following ≠ [] ∧ Overlaps short long

/-- A last argument ends inside a longer one when its source name and the closing mark begin the
source name of the longer one. -/
def EndsInside (short : Text) (following : List Text) (long : Text) : Prop :=
  following = [] ∧ sourceName short ++ ['E'] <+: sourceName long

/-- An argument collides with a longer one when it runs into it, or ends inside it. -/
def Collides (short : Text) (following : List Text) (long : Text) : Prop :=
  -- What stands behind the closing mark matters for a last argument only.
  RunsInto short following long ∨ EndsInside short following long

/-- Lists of arguments are apart when, behind arguments that name the same types, no two that name
classes clash. A clash is one of an argument, in front of those that follow it, with another one. -/
def AreApart (clash : Text → List Text → Text → Prop) : List Text → List Text → Prop
  | argument :: first, other :: second =>
    (Builtin.ofSpelling? argument = none → Builtin.ofSpelling? other = none →
        ¬clash argument first other ∧ ¬clash other second argument) ∧
      -- What follows the first difference does not matter.
      (argumentType argument = argumentType other → AreApart clash first second)
  | _, _ => True

/-- Whether a text overlaps another one can be decided. -/
instance (short long : Text) : Decidable (Overlaps short long) :=
  inferInstanceAs (Decidable (short.length < long.length ∧
    (decimal long.length <+: sourceName short ∨ sourceName short <+: decimal long.length)))

/-- Whether an argument runs into another one can be decided. -/
instance (short : Text) (following : List Text) (long : Text) :
    Decidable (RunsInto short following long) :=
  inferInstanceAs (Decidable (following ≠ [] ∧ Overlaps short long))

/-- Whether an argument collides with another one can be decided. -/
instance (short : Text) (following : List Text) (long : Text) :
    Decidable (Collides short following long) :=
  inferInstanceAs (Decidable (RunsInto short following long ∨
    (following = [] ∧ sourceName short ++ ['E'] <+: sourceName long)))

/-- Whether lists of arguments are apart can be decided, if every clash can be. -/
instance decidableAreApart {clash : Text → List Text → Text → Prop}
    [clashes : ∀ short following long, Decidable (clash short following long)] :
    ∀ first second : List Text, Decidable (AreApart clash first second)
  | argument :: first, other :: second =>
    have := @decidableAreApart clash clashes first second
    inferInstanceAs (Decidable
      ((Builtin.ofSpelling? argument = none → Builtin.ofSpelling? other = none →
          ¬clash argument first other ∧ ¬clash other second argument) ∧
        (argumentType argument = argumentType other → AreApart clash first second)))
  | [], _ => .isTrue trivial
  | _ :: _, [] => .isTrue trivial

/-- A length that begins another one is no greater, and at most a tenth of it if it is not the
whole. -/
theorem le_of_decimal_append {short long : Nat} {behind : Text}
    (split : decimal short ++ behind = decimal long) :
    short ≤ long ∧ (behind ≠ [] → 10 * short ≤ long) := by
  -- Further digits multiply what the digits in front of them spell.
  have more : 10 ^ behind.length * short ≤ long := by
    rw [← readDecimal_decimal long, ← split, readDecimal, Nat.ofDigitChars_append,
      @Nat.ofDigitChars_eq_ofDigitChars_zero behind, ← readDecimal, readDecimal_decimal]
    exact Nat.le_add_right _ _
  have grown : ∀ count : Nat, short ≤ 10 ^ count * short :=
    fun count => Nat.le_mul_of_pos_left short (Nat.pow_pos (by decide))
  refine ⟨Nat.le_trans (grown _) more, ?_⟩
  intro nonempty
  obtain ⟨digit, digits, rfl⟩ := List.exists_cons_of_ne_nil nonempty
  have tenfold := grown digits.length
  rw [List.length_cons, Nat.pow_succ, Nat.mul_right_comm] at more
  omega

/-- A text that overlaps another one begins with a digit, and the other one has at least ten times as
many characters. -/
theorem Overlaps.leads {short long : Text} (nonempty : short ≠ []) (overlaps : Overlaps short long) :
    startsWithDigit short = true ∧ 10 * short.length ≤ long.length := by
  obtain ⟨less, overlap⟩ := overlaps
  obtain ⟨char, rest, rfl⟩ := List.exists_cons_of_ne_nil nonempty
  -- The length of the longer one is that of the shorter one, and goes on as the shorter one begins.
  obtain ⟨digits, split⟩ : ∃ digits,
      decimal (char :: rest).length ++ char :: digits = decimal long.length := by
    rcases overlap with inside | ⟨more, written⟩
    · have front : decimal (char :: rest).length <+: sourceName (char :: rest) :=
        List.prefix_append _ _
      rcases List.prefix_or_prefix_of_prefix front inside with ⟨behind, split⟩ | ⟨behind, split⟩
      · cases behind with
        | nil =>
          rw [List.append_nil] at split
          have same := congrArg readDecimal split
          rw [readDecimal_decimal, readDecimal_decimal] at same
          omega
        | cons digit digits =>
          rw [← split, sourceName, List.prefix_append_right_inj, List.cons_prefix_cons] at inside
          rw [inside.1] at split
          exact ⟨digits, split⟩
      · exact absurd (le_of_decimal_append split).1 (Nat.not_le_of_lt less)
    · rw [sourceName, List.append_assoc, List.cons_append] at written
      exact ⟨rest ++ more, written⟩
  have isDigit : char.isDigit = true :=
    @isDigit_of_mem_decimal long.length char (by simp [← split])
  exact ⟨by simp [startsWithDigit, isDigit],
    (le_of_decimal_append split).2 (List.cons_ne_nil char digits)⟩

/-- Source names are ordered by length as the texts are. -/
theorem length_sourceName_lt_iff {short long : Text} :
    (sourceName short).length < (sourceName long).length ↔ short.length < long.length := by
  rw [sourceName, sourceName, List.length_append, List.length_append]
  rcases Nat.lt_or_ge short.length long.length with less | more
  · have digits := length_decimal_le (Nat.le_of_lt less)
    omega
  · have digits := length_decimal_le more
    omega

/-- A text whose source name can be taken for that of a longer one overlaps it. -/
theorem overlaps_of_append_eq {short long behind after : Text} (less : short.length < long.length)
    (same : sourceName short ++ behind = sourceName long ++ after) : Overlaps short long := by
  -- Whatever stands in front in both is compared over the whole text.
  have front : sourceName short <+: sourceName long ++ after := ⟨behind, same⟩
  have length : decimal long.length <+: sourceName long ++ after :=
    (List.prefix_append _ _).trans (List.prefix_append _ _)
  exact ⟨less, List.prefix_or_prefix_of_prefix length front⟩

/-- A source name can be told from another one unless it can be taken for a longer one. -/
theorem sourceName_append_inj_of_not_lt {name other behind after : Text}
    (notShorter : ¬name.length < other.length) (notLonger : ¬other.length < name.length)
    (same : sourceName name ++ behind = sourceName other ++ after) :
    name = other ∧ behind = after := by
  have equal : name.length = other.length := by omega
  rw [sourceName, sourceName, equal, List.append_assoc, List.append_assoc,
    List.append_cancel_left_eq] at same
  exact List.append_inj same equal

/-- A source name can be told from another one unless one of the two overlaps the other. -/
theorem sourceName_append_inj {name other behind after : Text} (apart : ¬Overlaps name other)
    (also : ¬Overlaps other name) (same : sourceName name ++ behind = sourceName other ++ after) :
    name = other ∧ behind = after :=
  sourceName_append_inj_of_not_lt (fun less => apart (overlaps_of_append_eq less same))
    (fun less => also (overlaps_of_append_eq less same.symm)) same

/-- An argument overlaps each longer one with which it collides. -/
theorem Collides.overlaps {short long : Text} {following : List Text}
    (collides : Collides short following long) : Overlaps short long := by
  rcases collides with ⟨_, overlaps⟩ | ⟨_, rest, whole⟩
  · exact overlaps
  · -- With the mark behind it the source name is still no longer than the other one.
    have longer := congrArg List.length whole
    simp only [List.length_append, List.length_singleton] at longer
    refine @overlaps_of_append_eq short long ('E' :: rest) [] ?_ (by simpa using whole)
    exact length_sourceName_lt_iff.mp (by omega)

/-- Lists of arguments are apart when no argument of one clashes with one of the other. -/
theorem areApart_of_not_clash {clash : Text → List Text → Text → Prop} {first second : List Text}
    (free : ∀ argument ∈ first, ∀ other ∈ second, ∀ following,
      ¬clash argument following other ∧ ¬clash other following argument) :
    AreApart clash first second := by
  induction first generalizing second with
  | nil => trivial
  | cons argument first ih =>
    cases second with
    | nil => trivial
    | cons other second =>
      have here := free argument (List.mem_cons_self ..) other (List.mem_cons_self ..)
      refine ⟨fun _ _ => ⟨(here first).1, (here second).2⟩, fun _ => ih ?_⟩
      intro later member partner among
      exact free later (List.mem_cons_of_mem _ member) partner (List.mem_cons_of_mem _ among)

/-- Arguments are apart when none of them begins with a digit, or when all are short, if only such
that overlap each other clash. -/
theorem areApart_of_forall {clash : Text → List Text → Text → Prop}
    (overlapping : ∀ {short following long}, clash short following long → Overlaps short long)
    {first second : List Text} (nonempty : ∀ argument ∈ first ++ second, argument ≠ [])
    (plain : (∀ argument ∈ first ++ second, startsWithDigit argument = false) ∨
      ∀ argument ∈ first ++ second, argument.length < 10) : AreApart clash first second := by
  -- A clash needs a digit in front of one argument and ten characters in the other one.
  have none : ∀ short ∈ first ++ second, ∀ long ∈ first ++ second, ∀ following,
      ¬clash short following long := by
    intro short member long among following clashes
    obtain ⟨digit, longer⟩ := (overlapping clashes).leads (nonempty short member)
    have positive := List.length_pos_iff.mpr (nonempty short member)
    rcases plain with undigited | brief
    · simp [undigited short member] at digit
    · have bounded := brief long among
      omega
  apply areApart_of_not_clash
  intro argument member other among following
  have inside := List.mem_append_left second member
  have beside := List.mem_append_right first among
  exact ⟨none argument inside other beside following, none other beside argument inside following⟩

/-- What arguments are written as in front of a closing mark, with what stands behind the mark. -/
def closedArguments (arguments : List Text) (behind : Text) : Text :=
  (arguments.map argumentType).flatMap BaseType.encoding ++ 'E' :: behind

/-- Behind an argument stand those that follow it. -/
theorem closedArguments_cons (argument : Text) (arguments : List Text) (behind : Text) :
    closedArguments (argument :: arguments) behind =
      (argumentType argument).encoding ++ closedArguments arguments behind := by
  simp [closedArguments]

/-- A clash explains two rests when an argument clashes with each longer one for which it can be taken
in front of them. -/
def Explains (clash : Text → List Text → Text → Prop) (behind after : Text) : Prop :=
  ∀ (short long : Text) (following others : List Text), short.length < long.length →
    sourceName short ++ closedArguments following behind =
      sourceName long ++ closedArguments others after → clash short following long

/-- Where nothing stands behind the closing marks, no argument is taken for a longer one unless it runs
into it. -/
theorem explains_runsInto : Explains RunsInto [] [] := by
  intro short long following others less same
  refine ⟨?_, overlaps_of_append_eq less same⟩
  rintro rfl
  -- A last argument leaves less text than a longer one.
  have shorter := length_sourceName_lt_iff.mpr less
  have lengths := congrArg List.length same
  simp only [closedArguments, List.map_nil, List.flatMap_nil, List.length_append, List.length_nil,
    List.length_cons] at lengths
  omega

/-- Whatever stands behind the closing marks, no argument is taken for a longer one unless it collides
with it. -/
theorem explains_collides (behind after : Text) : Explains Collides behind after := by
  intro short long following others less same
  cases following with
  | cons next following =>
    exact Or.inl ⟨List.cons_ne_nil next following, overlaps_of_append_eq less same⟩
  | nil =>
    -- The closing mark is a part of the longer source name.
    have front : sourceName short ++ ['E'] <+: sourceName long ++ closedArguments others after :=
      ⟨behind, by rw [← same]; simp [closedArguments]⟩
    have shorter := length_sourceName_lt_iff.mpr less
    refine Or.inr ⟨rfl, List.prefix_of_prefix_length_le front (List.prefix_append _ _) ?_⟩
    rw [List.length_append, List.length_singleton]
    omega

/-- What an argument names can be told from its text, if no clash explains what stands behind it. -/
theorem argumentType_append_inj {clash : Text → List Text → Text → Prop} {behind after : Text}
    (forward : Explains clash behind after) (backward : Explains clash after behind)
    {argument other : Text} {first second : List Text}
    (apart : Builtin.ofSpelling? argument = none → Builtin.ofSpelling? other = none →
      ¬clash argument first other ∧ ¬clash other second argument)
    (same : (argumentType argument).encoding ++ closedArguments first behind =
      (argumentType other).encoding ++ closedArguments second after) :
    argumentType argument = argumentType other ∧
      closedArguments first behind = closedArguments second after := by
  -- A fundamental type has a letter in front, and a class has a digit there.
  have differ : ∀ (kind : Builtin) (name rest text : Text),
      kind.code ++ rest ≠ sourceName name ++ text := by
    intro kind name rest text equal
    obtain ⟨letter, behind, coded, noDigit, _⟩ := kind.exists_head
    obtain ⟨digit, others, spelled, isDigit⟩ := sourceName_eq_cons name
    rw [coded, spelled] at equal
    exact ne_of_isDigit isDigit noDigit (List.cons.inj equal).1.symm
  unfold argumentType at same ⊢
  cases found : Builtin.ofSpelling? argument with
  | some kind =>
    cases also : Builtin.ofSpelling? other with
    | some partner =>
      rw [found, also] at same
      exact BaseType.encoding_injective (show (BaseType.builtin kind).IsReadable from trivial)
        (show (BaseType.builtin partner).IsReadable from trivial) same
    | none =>
      rw [found, also] at same
      exact absurd same (differ kind other _ _)
  | none =>
    cases also : Builtin.ofSpelling? other with
    | some partner =>
      rw [found, also] at same
      exact absurd same.symm (differ partner argument _ _)
    | none =>
      rw [found, also] at same
      obtain ⟨free, freeToo⟩ := apart found also
      obtain ⟨equal, rest⟩ := sourceName_append_inj_of_not_lt
        (fun less => free (forward argument other first second less same))
        (fun less => freeToo (backward other argument second first less same.symm)) same
      exact ⟨by rw [equal], rest⟩

/-- What arguments in front of a closing mark name can be told from their text, if they are apart under
a clash that explains what stands behind the mark. -/
theorem closedArguments_inj {clash : Text → List Text → Text → Prop} {behind after : Text}
    (forward : Explains clash behind after) (backward : Explains clash after behind)
    {first second : List Text} (apart : AreApart clash first second)
    (same : closedArguments first behind = closedArguments second after) :
    first.map argumentType = second.map argumentType ∧ behind = after := by
  -- The closing mark is not the beginning of an argument.
  have unclosed : ∀ (type : BaseType) (rest text : Text), 'E' :: rest ≠ type.encoding ++ text := by
    intro type rest text equal
    obtain ⟨char, inner, spelled, _, other⟩ := type.exists_head
    rw [spelled] at equal
    exact other (List.cons.inj equal).1.symm
  induction first generalizing second with
  | nil =>
    cases second with
    | nil => simpa [closedArguments] using same
    | cons other second =>
      rw [closedArguments_cons] at same
      exact absurd same (unclosed _ _ _)
  | cons argument first ih =>
    cases second with
    | nil =>
      rw [closedArguments_cons] at same
      exact absurd same.symm (unclosed _ _ _)
    | cons other second =>
      obtain ⟨here, later⟩ := apart
      rw [closedArguments_cons, closedArguments_cons] at same
      obtain ⟨equal, rest⟩ := argumentType_append_inj forward backward here same
      obtain ⟨others, ends⟩ := ih (later equal) rest
      exact ⟨by rw [List.map_cons, List.map_cons, equal, others], ends⟩

/-- Template arguments are written between their mark and the closing one. -/
theorem templateArgs_append (items : List Text) (behind : Text) :
    templateArgs items ++ behind = 'I' :: closedArguments (argumentsOf items) behind := by
  simp [templateArgs_eq, closedArguments]

/-- The name of a run has all of its identifier characters. -/
theorem countP_runName (run : Text) :
    (runName run).countP isIdentifierChar = run.countP isIdentifierChar := by
  have kept : ∀ begun, (keptFrom begun run).countP isIdentifierChar =
      run.countP isIdentifierChar := by
    induction run with
    | nil => exact fun _ => rfl
    | cons char rest ih =>
      intro begun
      have separate : isIdentifierChar ' ' = false := by decide
      rw [keptFrom]
      by_cases joins : isIdentifierChar char = true
      · simp [joins, ih]
      · rw [if_neg joins, List.countP_cons_of_neg joins]
        split <;> simp [separate, ih]
  rw [runName_eq, kept]

/-- The name of a run has no characters but those of the run. -/
theorem runName_subset (run : Text) : runName run ⊆ run := by
  intro char member
  rw [runName, List.mem_map] at member
  obtain ⟨⟨_, place⟩, kept, rfl⟩ := member
  exact List.fst_mem_of_mem_zipIdx (List.mem_filter.mp kept).1

/-- A text whose first run is in front of a bracket is no symbol that begins with the name of the
run. -/
theorem run_append_ne_symbol {run : Text} (plain : IsRun run) {marks : Text}
    (opening : AreOpeningMarks marks) (rest back : Text) :
    run ++ '<' :: rest ≠ symbolMark ++ (marks ++ (sourceName (runName run) ++ back)) := by
  intro same
  have front : symbolMark ++ (marks ++ sourceName (runName run)) <+: run ++ '<' :: rest :=
    ⟨back, by rw [same]; simp⟩
  have unbracketed : '<' ∉ symbolMark ++ (marks ++ sourceName (runName run)) := by
    have inMarks : '<' ∉ marks := by rcases opening with rfl | rfl | rfl <;> decide
    have inLength : '<' ∉ decimal (runName run).length :=
      fun member => absurd (isDigit_of_mem_decimal member) (by decide)
    have inName : '<' ∉ runName run := fun member => (plain '<' (runName_subset run member)).2.1 rfl
    simp [symbolMark, sourceName, inMarks, inLength, inName]
  -- The run would have the characters of its name and those of the mark in front of the symbol.
  have counted := (prefix_of_prefix_append_cons unbracketed front).sublist.countP_le
    (p := isIdentifierChar)
  have marked : symbolMark.countP isIdentifierChar = 2 := by decide
  rw [List.countP_append, List.countP_append, sourceName, List.countP_append, countP_runName,
    marked] at counted
  omega

/-- Template arguments that stand in an accepted signature stand on its path. -/
theorem exists_path_behind {front back path ending : List Token} {content : Text}
    {items : List Text} {inScope : Prop} (isEnding : IsTokenEnding inScope ending)
    (split : front ++ .templateArgs content items :: back = path ++ ending) :
    ∃ more, path = front ++ .templateArgs content items :: more := by
  have absent : .templateArgs content items ∉ ending := by
    cases isEnding <;> simp
  obtain ⟨more, whole, _⟩ := exists_append_of_mark absent split
  exact ⟨more, whole⟩

/-- A signature without separators in which template arguments stand begins with a run and an
opening bracket, and its first token is the name of the run. -/
theorem exists_run_of_templateArgs {signature : Text} {front back : List Token} {content : Text}
    {items : List Text}
    (scanned : (scanSignature signature).result =
      .ok (front ++ .templateArgs content items :: back))
    (flat : .scope ∉ front ++ .templateArgs content items :: back) :
    ∃ run rest tokens, IsRun run ∧ signature = run ++ '<' :: rest ∧
      front = .name (runName run) :: tokens := by
  obtain ⟨divided, formed, rfl, listed⟩ := exists_signature_of_scanSignature scanned
  cases divided using Signature.frontInduction with
  | ended run tail =>
    -- Neither a run nor a tail has template arguments.
    have member : .templateArgs content items ∈ runTokens run ++ tail.tokens := by
      rw [← Signature.tokens_ended, listed]
      simp
    rw [runTokens] at member
    cases tail <;> split at member <;> simp [Tail.tokens] at member
  | nested run rest =>
    rw [← listed, Signature.tokens_nested] at flat
    simp at flat
  | bracketed run content rest =>
    obtain ⟨⟨plain, _⟩, _⟩ := Signature.isWellFormed_bracketed.mp formed
    rw [Signature.tokens_bracketed] at listed
    cases front with
    | nil => simp at listed
    | cons token tokens =>
      rw [List.cons_append, List.cons.injEq] at listed
      exact ⟨run, _, tokens, plain, Signature.text_bracketed run content rest, by rw [listed.1]⟩

/-- In front of template arguments a signature has a name, so what the tokens there add to its
symbol begins with a digit. Without scope and parameters it is left as it is, and otherwise the
arguments are written behind what is in front of them. -/
theorem mangle_of_templateArgs {signature : Text} {front back : List Token} {content : Text}
    {items : List Text}
    (scanned : (scanSignature signature).result =
      .ok (front ++ .templateArgs content items :: back)) :
    (∃ digit rest, front.flatMap Token.encoding = digit :: rest ∧ digit.isDigit = true) ∧
      (((mangle signature).outcome = .ok signature ∧
          .scope ∉ front ++ .templateArgs content items :: back) ∨
        ∃ marks behind, AreOpeningMarks marks ∧ (mangle signature).outcome =
          .ok (symbolMark ++ (marks ++
            (front.flatMap Token.encoding ++ (templateArgs items ++ behind))))) := by
  obtain ⟨path, ending, split, isPath, isEnding⟩ := exists_path_of_scanSignature scanned
  obtain ⟨more, rfl⟩ := exists_path_behind isEnding split
  have added : (front ++ .templateArgs content items :: more).flatMap Token.encoding =
      front.flatMap Token.encoding ++ (templateArgs items ++ more.flatMap Token.encoding) := by
    simp [Token.encoding, templateArgs]
  obtain ⟨digit, rest, spelled, isDigit⟩ := isPath.exists_head (by rw [added]; simp [templateArgs])
  rw [added] at spelled
  refine ⟨?_, ?_⟩
  · cases written : front.flatMap Token.encoding with
    | nil =>
      -- The mark of template arguments is no digit.
      rw [written, List.nil_append, templateArgs, List.cons_append, List.cons.injEq] at spelled
      rw [← spelled.1] at isDigit
      exact absurd isDigit (by decide)
    | cons char others =>
      rw [written, List.cons_append, List.cons.injEq] at spelled
      exact ⟨char, others, rfl, by rw [spelled.1, isDigit]⟩
  · rw [split] at scanned ⊢
    rcases mangle_of_path scanned isPath isEnding with
      ⟨outcome, flat, rfl⟩ | ⟨marks, behind, opening, outcome⟩
    · exact Or.inl ⟨outcome, by simpa using flat⟩
    · rw [added, List.append_assoc, List.append_assoc] at outcome
      exact Or.inr ⟨marks, _, opening, outcome⟩

/-- A signature that is left as it is differs from every symbol with the same name in front of
template arguments. -/
theorem ne_symbol_of_templateArgs {signature : Text} {front back : List Token} {content : Text}
    {items : List Text}
    (scanned : (scanSignature signature).result =
      .ok (front ++ .templateArgs content items :: back))
    (flat : .scope ∉ front ++ .templateArgs content items :: back) {marks : Text}
    (opening : AreOpeningMarks marks) (behind : Text) :
    signature ≠ symbolMark ++ (marks ++ (front.flatMap Token.encoding ++ behind)) := by
  obtain ⟨run, rest, tokens, plain, rfl, rfl⟩ := exists_run_of_templateArgs scanned flat
  rw [List.flatMap_cons, Token.encoding, List.append_assoc]
  exact run_append_ne_symbol plain opening rest _

/-- Two signatures that have the same tokens in front of arguments that name different types are
mangled into different symbols, if no argument collides with a longer one. -/
theorem mangle_ne_of_templateArgs {first second : List Text}
    (apart : AreApart Collides (argumentsOf first) (argumentsOf second))
    (differ : (argumentsOf first).map argumentType ≠ (argumentsOf second).map argumentType)
    {signature other content text : Text} {front back after : List Token}
    (scanned : (scanSignature signature).result =
      .ok (front ++ .templateArgs content first :: back))
    (also : (scanSignature other).result = .ok (front ++ .templateArgs text second :: after)) :
    ∃ symbol different, (mangle signature).outcome = .ok symbol ∧
      (mangle other).outcome = .ok different ∧ symbol ≠ different := by
  obtain ⟨⟨digit, rest, spelled, isDigit⟩, shape⟩ := mangle_of_templateArgs scanned
  obtain ⟨_, alsoShape⟩ := mangle_of_templateArgs also
  -- Either signature is left as it is, or has its arguments behind the same text in its symbol.
  rcases shape with ⟨outcome, flat⟩ | ⟨marks, behind, opening, outcome⟩
  · rcases alsoShape with ⟨alsoOutcome, _⟩ | ⟨others, alsoBehind, alsoOpening, alsoOutcome⟩
    · -- What is left as it is has the tokens of its own text.
      refine ⟨signature, other, outcome, alsoOutcome, ?_⟩
      rintro rfl
      rw [scanned, Except.ok.injEq, List.append_cancel_left_eq, List.cons.injEq,
        Token.templateArgs.injEq] at also
      exact differ (by rw [also.1.2])
    · exact ⟨_, _, outcome, alsoOutcome, ne_symbol_of_templateArgs scanned flat alsoOpening _⟩
  · rcases alsoShape with ⟨alsoOutcome, flat⟩ | ⟨others, alsoBehind, alsoOpening, alsoOutcome⟩
    · exact ⟨_, _, outcome, alsoOutcome, (ne_symbol_of_templateArgs also flat opening _).symm⟩
    · refine ⟨_, _, outcome, alsoOutcome, ?_⟩
      intro same
      rw [List.append_cancel_left_eq, spelled, List.cons_append, List.cons_append] at same
      have equal := AreOpeningMarks.append_inj opening alsoOpening isDigit isDigit same
      rw [List.cons.injEq, List.append_cancel_left_eq, templateArgs_append, templateArgs_append,
        List.cons.injEq] at equal
      exact differ (closedArguments_inj (explains_collides _ _) (explains_collides _ _) apart
        equal.2.2).1

/-- Template arguments of which none runs into a longer one have the same encoding exactly when they
name the same types; and if none collides with a longer one, two signatures that have the same tokens
in front of arguments that name different types are mangled into different symbols. Neither happens
when no argument begins with a digit, or when all are short. -/
theorem templateArgs_injective (first second : List Text) :
    (AreApart RunsInto (argumentsOf first) (argumentsOf second) →
      (templateArgs first = templateArgs second ↔
        (argumentsOf first).map argumentType = (argumentsOf second).map argumentType)) ∧
    (AreApart Collides (argumentsOf first) (argumentsOf second) →
      ∀ (signature other content text : Text) (front back after : List Token),
      (scanSignature signature).result = .ok (front ++ .templateArgs content first :: back) →
      (scanSignature other).result = .ok (front ++ .templateArgs text second :: after) →
      (argumentsOf first).map argumentType ≠ (argumentsOf second).map argumentType →
      ∃ symbol different, (mangle signature).outcome = .ok symbol ∧
        (mangle other).outcome = .ok different ∧ symbol ≠ different) ∧
    ((∀ argument ∈ argumentsOf first ++ argumentsOf second, startsWithDigit argument = false) ∨
        (∀ argument ∈ argumentsOf first ++ argumentsOf second, argument.length < 10) →
      AreApart RunsInto (argumentsOf first) (argumentsOf second) ∧
        AreApart Collides (argumentsOf first) (argumentsOf second)) := by
  refine ⟨?_, ?_, ?_⟩
  · intro apart
    constructor
    · intro same
      have closed := congrArg (· ++ []) same
      simp only [templateArgs_append, List.cons.injEq, true_and] at closed
      exact (closedArguments_inj explains_runsInto explains_runsInto apart closed).1
    · intro same
      rw [templateArgs_eq, templateArgs_eq, same]
  · intro apart signature other content text front back after scanned also differ
    exact mangle_ne_of_templateArgs apart differ scanned also
  · intro plain
    -- An empty argument is none.
    have nonempty : ∀ argument ∈ argumentsOf first ++ argumentsOf second, argument ≠ [] := by
      intro argument member
      simp only [argumentsOf, List.mem_append, List.mem_filter] at member
      rcases member with ⟨_, spelled⟩ | ⟨_, spelled⟩ <;> simpa using spelled
    exact ⟨areApart_of_forall And.right nonempty plain,
      areApart_of_forall Collides.overlaps nonempty plain⟩

/-- Numbers are told from classes that begin with digits, as long as all are short; and at the end of a
list a number is told from a longer class, even if the length of this one begins like the number. -/
theorem templateArgs_injective_numbers :
    (let first := ["3".toList, " B".toList]
      let second := ["31B".toList]
      templateArgs first ≠ templateArgs second ∧
        ∃ symbol different, (mangle "A::f<3, B>(int)".toList).outcome = .ok symbol ∧
          (mangle "A::f<31B>".toList).outcome = .ok different ∧ symbol ≠ different) ∧
    (let first := ["B".toList, " 1".toList]
      let second := ["B".toList, " std::string".toList]
      Overlaps "1".toList "std::string".toList ∧
        AreApart RunsInto (argumentsOf first) (argumentsOf second) ∧
        AreApart Collides (argumentsOf first) (argumentsOf second) ∧
        templateArgs first ≠ templateArgs second ∧
        ∃ symbol different, (mangle "f<B, 1>(int)".toList).outcome = .ok symbol ∧
          (mangle "f<B, std::string>(int)".toList).outcome = .ok different ∧
          symbol ≠ different) := by
  constructor
  · intro first second
    have differ : (argumentsOf first).map argumentType ≠ (argumentsOf second).map argumentType := by
      decide
    obtain ⟨encodings, symbols, plain⟩ := templateArgs_injective first second
    obtain ⟨apart, free⟩ := plain (Or.inr (by decide))
    refine ⟨fun equal => differ ((encodings apart).mp equal), ?_⟩
    exact symbols free "A::f<3, B>(int)".toList "A::f<31B>".toList "3, B".toList "31B".toList
      [.name "A".toList, .scope, .name "f".toList] [.params "int".toList ["int".toList], .stop]
      [.stop] (by with_unfolding_all rfl) (by with_unfolding_all rfl) differ
  · intro first second
    have differ : (argumentsOf first).map argumentType ≠ (argumentsOf second).map argumentType := by
      decide
    obtain ⟨encodings, symbols, _⟩ := templateArgs_injective first second
    have apart : AreApart RunsInto (argumentsOf first) (argumentsOf second) := by decide
    have free : AreApart Collides (argumentsOf first) (argumentsOf second) := by decide
    -- One class has more than nine characters, so this pair is decided by itself.
    refine ⟨by decide, apart, free, fun equal => differ ((encodings apart).mp equal), ?_⟩
    exact symbols free "f<B, 1>(int)".toList "f<B, std::string>(int)".toList "B, 1".toList
      "B, std::string".toList [.name "f".toList] [.params "int".toList ["int".toList], .stop]
      [.params "int".toList ["int".toList], .stop] (by with_unfolding_all rfl)
      (by with_unfolding_all rfl) differ

/-- A number that runs into a class with a long name takes the place of the length of this name, so
three arguments are encoded as one. A number that ends inside such a class lets the parameters behind
it take the place of the rest of the name, so different arguments lead to one symbol. -/
theorem templateArgs_collisions :
    (let first := ["1".toList, "int".toList, "abcdefghi".toList]
      let second := ["i9abcdefghi".toList]
      (∀ argument ∈ first ++ second, argument ≠ [] ∧ trimBlanks argument = argument ∧
          ',' ∉ argument ∧ '>' ∉ argument) ∧
        ¬AreApart RunsInto first second ∧ first.map argumentType ≠ second.map argumentType ∧
        templateArgs first = templateArgs second ∧
        (mangle "f<1,int,abcdefghi>()".toList).outcome = .ok "_Z1fI11i9abcdefghiEv".toList ∧
        (mangle "f<i9abcdefghi>()".toList).outcome = .ok "_Z1fI11i9abcdefghiEv".toList) ∧
    (let first := ["1".toList]
      let second := ["E20aaaaaaaa".toList]
      (∀ argument ∈ first ++ second, argument ≠ [] ∧ trimBlanks argument = argument ∧
          ',' ∉ argument ∧ '>' ∉ argument) ∧
        AreApart RunsInto first second ∧ ¬AreApart Collides first second ∧
        first.map argumentType ≠ second.map argumentType ∧
        templateArgs first ≠ templateArgs second ∧
        (mangle "f<1>(aaaaaaaaE9bbbbbbbbbi)".toList).outcome =
          .ok "_Z1fI11E20aaaaaaaaE9bbbbbbbbbi".toList ∧
        (mangle "f<E20aaaaaaaa>(bbbbbbbbb,int)".toList).outcome =
          .ok "_Z1fI11E20aaaaaaaaE9bbbbbbbbbi".toList) := by
  refine ⟨⟨by decide, by decide, by decide, by decide, ?_, ?_⟩,
    by decide, by decide, by decide, by decide, by decide, ?_, ?_⟩
  · with_unfolding_all rfl
  · with_unfolding_all rfl
  · with_unfolding_all rfl
  · with_unfolding_all rfl

end Mangling
