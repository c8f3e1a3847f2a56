import Mangling.Proofs.Encoding.Compression
import Mangling.Proofs.Symbol.ReadBack

/-! Types as they are written into a symbol, references included, and how they are read back. -/

namespace Mangling

/-- A base as it is written. -/
inductive WrittenBase where
  /-- In full. -/
  | full (base : BaseType)
  /-- As a reference. -/
  | reference (index : Nat)
  /-- As the nested name of a reference and the names behind it. -/
  | member (index : Nat) (names : List Text)
  deriving DecidableEq

/-- A type as it is written, with the qualifiers in front of its base. -/
structure WrittenType where
  qualifiers : Text
  base : WrittenBase
  deriving DecidableEq

/-- The fragments of a base. -/
def WrittenBase.fragments : WrittenBase → List Fragment
  | .full base => [.literal base.encoding]
  | .reference index => [.entry index]
  -- The reference stands between the mark and the names.
  | .member index names =>
    [.literal ['N'], .scope index, .literal (names.flatMap sourceName ++ ['E'])]

/-- The fragments of a type. -/
def WrittenType.fragments (written : WrittenType) : List Fragment :=
  .literal written.qualifiers :: written.base.fragments

/-- The index that a base refers to, if it does. -/
def WrittenBase.index? : WrittenBase → Option Nat
  | .full _ => none
  | .reference index => some index
  | .member index _ => some index

/-- A written base can be told from what follows it. -/
def WrittenBase.IsReadable : WrittenBase → Prop
  | .full base => base.IsReadable
  | .reference _ => True
  -- Without names behind the reference there would be no nested name.
  | .member _ names => names ≠ [] ∧ ∀ name ∈ names, IsName name

/-- A written type can be told from what follows it. -/
def WrittenType.IsReadable (written : WrittenType) : Prop :=
  -- Only these two qualifiers are ever written.
  (∀ code ∈ written.qualifiers, code = 'K' ∨ code = 'P') ∧ written.base.IsReadable

/-- The type that is written for a parameter in a form. -/
def Form.written (parameter : Parameter) : Form → WrittenType
  | .whole => { qualifiers := parameter.qualifiers, base := .full parameter.baseType }
  | .reference split index =>
    { qualifiers := parameter.qualifiers.take split, base := .reference index }
  | .member depth index =>
    { qualifiers := parameter.qualifiers
      base := .member index (parameter.scopeNames.drop depth) }

/-- A base that is written in full is spelled as what it names. -/
@[simp] theorem WrittenBase.spell_full (base : BaseType) :
    spellFragments (WrittenBase.full base).fragments = base.encoding := by
  simp [spellFragments, fragments, Fragment.spelling]

/-- A base that is written as a reference is spelled as its digits between two marks. -/
@[simp] theorem WrittenBase.spell_reference (index : Nat) :
    spellFragments (WrittenBase.reference index).fragments =
      'S' :: (referenceDigits index ++ ['_']) := by
  simp [spellFragments, fragments, Fragment.spelling]

/-- The names of a nested name stand behind the reference to its head. -/
@[simp] theorem WrittenBase.spell_member (index : Nat) (names : List Text) :
    spellFragments (WrittenBase.member index names).fragments =
      'N' :: 'S' :: (referenceDigits index ++ '_' :: (names.flatMap sourceName ++ ['E'])) := by
  simp [spellFragments, fragments, Fragment.spelling]

/-- The qualifiers of a written type stand in front of its base. -/
@[simp] theorem WrittenType.spell_eq (written : WrittenType) :
    spellFragments written.fragments =
      written.qualifiers ++ spellFragments written.base.fragments := by
  simp [spellFragments, fragments, Fragment.spelling]

/-- The fragments of a form are those of the type that is written in it. -/
theorem Form.fragments_eq {parameter : Parameter} (based : parameter.base ≠ []) (form : Form) :
    form.fragments parameter = (form.written parameter).fragments := by
  cases form with
  | whole =>
    simp [fragments, written, WrittenType.fragments, WrittenBase.fragments,
      Parameter.encodedBase_eq based]
  | reference split index => rfl
  | member depth index => rfl

/-- What a form writes for a readable parameter is readable. -/
theorem Form.isReadable_written {entries : List Text} {parameter : Parameter} {form : Form}
    (fits : form.Fits entries parameter) (readable : parameter.IsReadable) :
    (form.written parameter).IsReadable := by
  cases form with
  | whole => exact ⟨readable.coded, readable.baseType⟩
  | reference split index =>
    refine ⟨?_, trivial⟩
    intro code member
    exact readable.coded code (List.mem_of_mem_take member)
  | member depth index =>
    obtain ⟨_, nested, _, short, _⟩ := fits
    have path := readable.baseType
    rw [Parameter.baseType_of_isScoped nested] at path
    refine ⟨readable.coded, ?_, ?_⟩
    · -- The depth falls short of the path, so some name is left.
      rw [Ne, List.drop_eq_nil_iff]
      omega
    · intro name member
      exact path.2 name (List.mem_of_mem_drop member)

/-- Reads the index of a back reference behind its first mark, with a rule for its digits. -/
def readIndex (number : Text → Option Nat) (text : Text) : Option (Nat × Text) :=
  match text.dropWhile (· != '_') with
  | [] => none
  | _ :: rest =>
    -- The first index has no digits, and every other is one more than they tell.
    let digits := text.takeWhile (· != '_')
    if digits.isEmpty then some (0, rest)
    else (number digits).map fun value => (value + 1, rest)

/-- A rule for digits agrees with the numeral that is written for an index. -/
def IsNumbered (number : Text → Option Nat) (index : Nat) : Prop :=
  -- The first index is written without a numeral.
  index = 0 ∨ number (decimal (index - 1)) = some (index - 1)

/-- The index of a back reference is read back where the rule for digits agrees. -/
theorem readIndex_digits {number : Text → Option Nat} {index : Nat}
    (numbered : IsNumbered number index) (rest : Text) :
    readIndex number (referenceDigits index ++ '_' :: rest) = some (index, rest) := by
  -- No digit is the closing mark.
  have digits : ∀ char ∈ referenceDigits index, (char != '_') = true := by
    intro char member
    rw [referenceDigits] at member
    split at member
    · simp at member
    · rw [bne_iff_ne]
      exact ne_of_isDigit (isDigit_of_mem_decimal member) (by decide)
  rw [readIndex, List.dropWhile_append_of_pos digits, List.takeWhile_append_of_pos digits]
  rcases numbered with first | agrees
  · simp [referenceDigits, first]
  · by_cases first : index = 0
    · simp [referenceDigits, first]
    · have more : index - 1 + 1 = index := by omega
      simp [referenceDigits, first, agrees, decimal_ne_nil, more]

/-- Reads a base as it was written. -/
def readWrittenBase (number : Text → Option Nat) (text : Text) : Option (WrittenBase × Text) :=
  match text with
  | 'N' :: 'S' :: rest =>
    match readIndex number rest with
    | none => none
    | some (index, rest) =>
      (readSources (fun _ => 1) rest).map fun (names, rest) => (.member index names, rest)
  | 'N' :: rest =>
    (readSources (fun _ => 1) rest).map fun (names, rest) => (.full (.nested names), rest)
  | 'S' :: rest => (readIndex number rest).map fun (index, rest) => (.reference index, rest)
  | _ =>
    -- No type code begins with a digit, so the order of these two does not matter.
    match readBuiltin text with
    | some (kind, rest) => some (.full (.builtin kind), rest)
    | none => (readSource (fun _ => 1) text).map fun (name, rest) => (.full (.source name), rest)

/-- Reads a type as it was written. -/
def readWritten (number : Text → Option Nat) : Text → Option (WrittenType × Text)
  | 'P' :: rest =>
    (readWritten number rest).map fun (written, rest) =>
      ({ written with qualifiers := 'P' :: written.qualifiers }, rest)
  | 'K' :: rest =>
    (readWritten number rest).map fun (written, rest) =>
      ({ written with qualifiers := 'K' :: written.qualifiers }, rest)
  | text =>
    (readWrittenBase number text).map fun (base, rest) => ({ qualifiers := [], base }, rest)

/-- A written base begins neither like a qualifier nor like a list of template arguments, and not with
the closing mark either. -/
theorem WrittenBase.exists_head (base : WrittenBase) :
    ∃ char rest, spellFragments base.fragments = char :: rest ∧
      char ≠ 'P' ∧ char ≠ 'K' ∧ char ≠ 'I' ∧ char ≠ 'E' := by
  cases base with
  | full base =>
    cases base with
    | builtin kind =>
      -- Every type code begins with a small letter or with D.
      cases kind <;> exact ⟨_, _, rfl, by decide, by decide, by decide, by decide⟩
    | source name =>
      obtain ⟨digit, rest, spelled, isDigit⟩ := sourceName_eq_cons name
      have apart : ∀ mark : Char, mark.isDigit = false → digit ≠ mark :=
        fun _ => ne_of_isDigit isDigit
      refine ⟨digit, rest, ?_, apart _ rfl, apart _ rfl, apart _ rfl, apart _ rfl⟩
      rw [spell_full, BaseType.encoding, spelled]
    | nested names => exact ⟨_, _, rfl, by decide, by decide, by decide, by decide⟩
  | reference index =>
    exact ⟨'S', referenceDigits index ++ ['_'], spell_reference index, by decide, by decide,
      by decide, by decide⟩
  | member index names => exact ⟨_, _, rfl, by decide, by decide, by decide, by decide⟩

/-- A text that begins with a digit holds a class. -/
theorem readWrittenBase_digit (number : Text → Option Nat) {digit : Char}
    (isDigit : digit.isDigit = true) (rest : Text) :
    readWrittenBase number (digit :: rest) =
      (readSource (fun _ => 1) (digit :: rest)).map fun (name, rest) =>
        (.full (.source name), rest) := by
  -- A digit is neither of the two marks, and begins no type code.
  rw [readWrittenBase.eq_def]
  split
  next same => simp only [List.cons.injEq] at same; simp [same.1] at isDigit
  next same => simp only [List.cons.injEq] at same; simp [same.1] at isDigit
  next same => simp only [List.cons.injEq] at same; simp [same.1] at isDigit
  next => simp [readBuiltin_digit isDigit]

/-- A nested name that begins with a digit holds names only. -/
theorem readWrittenBase_nested (number : Text → Option Nat) {digit : Char}
    (isDigit : digit.isDigit = true) (rest : Text) :
    readWrittenBase number ('N' :: digit :: rest) =
      (readSources (fun _ => 1) (digit :: rest)).map fun (names, rest) =>
        (.full (.nested names), rest) := by
  -- A digit is not the mark of a reference.
  rw [readWrittenBase.eq_def]
  split
  next same => simp only [List.cons.injEq] at same; simp [same.2.1] at isDigit
  next inner _ same => simp only [List.cons.injEq, true_and] at same; rw [same]
  next same => simp at same
  next other _ => exact absurd rfl (other _)

/-- A written base is read back, where the rule for digits agrees on its index. -/
theorem readWrittenBase_spell {number : Text → Option Nat} {base : WrittenBase}
    (readable : base.IsReadable) (numbered : ∀ index ∈ base.index?, IsNumbered number index)
    (rest : Text) :
    readWrittenBase number (spellFragments base.fragments ++ rest) = some (base, rest) := by
  -- Characters of a name all count as one here.
  have narrow : ∀ (name : Text), ∀ char ∈ name, (fun _ => 1 : Char → Nat) char = 1 :=
    fun _ _ _ => rfl
  cases base with
  | full base =>
    rw [WrittenBase.spell_full]
    cases base with
    | builtin kind => cases kind <;> rfl
    | source name =>
      have read := readSource_sourceName readable (narrow name) rest
      obtain ⟨digit, behind, front, isDigit⟩ := sourceName_eq_cons name
      rw [front, List.cons_append] at read
      rw [BaseType.encoding, front, List.cons_append, readWrittenBase_digit number isDigit, read]
      rfl
    | nested names =>
      obtain ⟨long, named⟩ := readable
      have read := readSources_flatMap named (fun name _ => narrow name) rest
      -- Behind the mark comes the length of the first name.
      cases names with
      | nil => simp at long
      | cons name names =>
        obtain ⟨digit, behind, front, isDigit⟩ := sourceName_eq_cons name
        simp only [List.flatMap_cons, front, List.cons_append, List.append_assoc] at read
        simp only [BaseType.encoding, nestedName, List.flatMap_cons, front, List.cons_append,
          List.append_assoc, List.nil_append]
        rw [readWrittenBase_nested number isDigit, read]
        rfl
  | reference index =>
    have read := readIndex_digits (numbered index rfl) rest
    simp [readWrittenBase, read]
  | member index names =>
    -- The index is read first, and then the names up to the mark.
    have behind := readSources_flatMap readable.2 (fun name _ => narrow name) rest
    have read := readIndex_digits (numbered index rfl) (names.flatMap sourceName ++ 'E' :: rest)
    simp [readWrittenBase, read, behind]

/-- A written type is read back, where the rule for digits agrees on its index. -/
theorem readWritten_spell {number : Text → Option Nat} {written : WrittenType}
    (readable : written.IsReadable)
    (numbered : ∀ index ∈ written.base.index?, IsNumbered number index) (rest : Text) :
    readWritten number (spellFragments written.fragments ++ rest) = some (written, rest) := by
  obtain ⟨qualifiers, base⟩ := written
  obtain ⟨coded, readableBase⟩ := readable
  simp only at coded numbered readableBase
  -- The qualifiers are read one by one, and then the base, which is none of them.
  rw [WrittenType.spell_eq, List.append_assoc]
  induction qualifiers with
  | nil =>
    have read := readWrittenBase_spell readableBase numbered rest
    obtain ⟨char, behind, front, unpointed, unconst, _⟩ := base.exists_head
    rw [front, List.cons_append] at read
    rw [front, List.nil_append, List.cons_append, readWritten.eq_def]
    split
    next same => exact absurd (List.cons.inj same).1 unpointed
    next same => exact absurd (List.cons.inj same).1 unconst
    next => simp [read]
  | cons code codes ih =>
    have read := ih fun other member => coded other (List.mem_cons_of_mem _ member)
    rcases coded code (List.mem_cons_self ..) with rfl | rfl
    · simp [readWritten, read]
    · simp [readWritten, read]

/-- The rule for the digits that are written: they are decimal, whatever their number. -/
def decimalNumber (digits : Text) : Option Nat :=
  some (readDecimal digits)

/-- The rule for what is written agrees with every index. -/
theorem isNumbered_decimalNumber (index : Nat) : IsNumbered decimalNumber index :=
  Or.inr (congrArg some (readDecimal_decimal _))

/-- Where a readable type ends, and which one it is, does not depend on what follows it. -/
theorem WrittenType.spell_injective {first second : WrittenType} (readable : first.IsReadable)
    (also : second.IsReadable) {behind after : Text}
    (same : spellFragments first.fragments ++ behind = spellFragments second.fragments ++ after) :
    first = second ∧ behind = after := by
  -- Reading gives back the type and the rest.
  have read := readWritten_spell readable
    (fun index _ => isNumbered_decimalNumber index) behind
  have again := readWritten_spell also (fun index _ => isNumbered_decimalNumber index) after
  rw [same, again, Option.some.injEq, Prod.mk.injEq] at read
  exact ⟨read.1.symm, read.2.symm⟩

/-- A readable type is told by its full encoding. -/
theorem encodingOf_injective {first second : Text × BaseType} (readable : IsReadableType first)
    (also : IsReadableType second) (same : encodingOf first = encodingOf second) :
    first = second := by
  -- The full encoding is the written type in which nothing refers back.
  have spelled : ∀ type : Text × BaseType,
      spellFragments (WrittenType.mk type.1 (.full type.2)).fragments ++ [] = encodingOf type := by
    intro type
    simp [encodingOf]
  rw [← spelled, ← spelled] at same
  have equal := (WrittenType.spell_injective
    (show (WrittenType.mk first.1 (.full first.2)).IsReadable from readable)
    (show (WrittenType.mk second.1 (.full second.2)).IsReadable from also) same).1
  simp only [WrittenType.mk.injEq, WrittenBase.full.injEq] at equal
  exact Prod.ext equal.1 equal.2

/-- The full encoding of a readable parameter tells its type. -/
theorem Parameter.encoded_injective {first second : Parameter} (readable : first.IsReadable)
    (also : second.IsReadable) (same : first.encoded = second.encoded) :
    first.type = second.type := by
  rw [← encodingOf_type readable.based, ← encodingOf_type also.based] at same
  exact encodingOf_injective readable.type also.type same

/-- What is written for a parameter does not begin with template arguments, and is not empty. -/
theorem Table.exists_head_encode (table : Table) {parameter : Parameter}
    (readable : parameter.IsReadable) :
    ∃ char rest, (table.encode parameter).1 = char :: rest ∧ char ≠ 'I' := by
  have fits := table.form_fits parameter
  have coded := (Form.isReadable_written fits readable).1
  rw [encode_eq, Form.fragments_eq readable.based]
  obtain ⟨char, rest, spelled, _, _, other, _⟩ :=
    ((table.form parameter).written parameter).base.exists_head
  cases qualifiers : ((table.form parameter).written parameter).qualifiers with
  | nil =>
    refine ⟨char, rest, ?_, other⟩
    simpa [qualifiers] using spelled
  | cons code codes =>
    -- A qualifier is one of two letters.
    refine ⟨code, codes ++ spellFragments
      ((table.form parameter).written parameter).base.fragments, ?_, ?_⟩
    · simp [qualifiers]
    · rcases coded code (by simp [qualifiers]) with rfl | rfl <;> decide

end Mangling
