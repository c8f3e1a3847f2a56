import Mangling.Proofs.Symbol.Layout
import Mangling.Proofs.Symbol.WrittenType

/-! The names on a path, with their template arguments, can be told from the text of a symbol. -/

namespace Mangling

/-- A name on a path as a symbol tells it, with its template arguments if it has a list of them. -/
structure PathName where
  name : Text
  arguments : Option (List BaseType)
  deriving DecidableEq

/-- The encoding of a name on a path. -/
def PathName.encoding (path : PathName) : Text :=
  sourceName path.name ++
    match path.arguments with
    | none => []
    -- A list without arguments still has its marks.
    | some types => 'I' :: (types.flatMap BaseType.encoding ++ ['E'])

/-- The text of a name on a path can be told from what follows it. -/
def PathName.IsReadable (path : PathName) : Prop :=
  IsName path.name ∧ ∀ types ∈ path.arguments, ∀ type ∈ types, type.IsReadable

/-- What a template argument names. -/
def argumentType (argument : Text) : BaseType :=
  match Builtin.ofSpelling? argument with
  | some kind => .builtin kind
  -- A path in an argument is one name, separators included.
  | none => .source argument

/-- What the arguments between template brackets name, of which empty ones do not count. -/
def argumentTypes (content : Text) : List BaseType :=
  (((commaPieces content).map trimBlanks).filter fun argument => !argument.isEmpty).map
    argumentType

/-- The arguments between template brackets, of which empty ones do not count. -/
def argumentsOf (items : List Text) : List Text :=
  (items.map trimBlanks).filter fun argument => !argument.isEmpty

/-- What a symbol tells of a component. -/
def Component.reading (component : Component) : PathName :=
  { name := component.name, arguments := component.arguments.map argumentTypes }

/-- An argument is encoded as what it names. -/
theorem plainType_eq {argument : Text} (nonempty : argument ≠ []) :
    plainType argument = (argumentType argument).encoding := by
  have spelled : argument.isEmpty = false := by simpa using nonempty
  rw [plainType, argumentType]
  cases Builtin.ofSpelling? argument <;> simp [spelled, BaseType.encoding]

/-- Template arguments are encoded as what they name, between two marks. -/
theorem templateArgs_eq (items : List Text) :
    templateArgs items =
      'I' :: (((argumentsOf items).map argumentType).flatMap BaseType.encoding ++ ['E']) := by
  -- An empty argument is encoded as nothing, so it can as well be left out.
  have types : items.flatMap (fun item => plainType (trimBlanks item)) =
      ((argumentsOf items).map argumentType).flatMap BaseType.encoding := by
    have nothing : plainType [] = [] := rfl
    induction items with
    | nil => rfl
    | cons item items ih =>
      by_cases empty : trimBlanks item = []
      · simpa [argumentsOf, empty, nothing] using ih
      · simpa [argumentsOf, empty, plainType_eq] using ih
  rw [templateArgs, types]

/-- A component is encoded as what a symbol tells of it. -/
theorem Component.encoding_eq (component : Component) :
    component.encoding = component.reading.encoding := by
  cases arguments : component.arguments with
  | none => simp [encoding, PathName.encoding, reading, arguments]
  | some content =>
    simp [encoding, PathName.encoding, reading, arguments, templateArgs_eq, argumentTypes,
      argumentsOf]

/-- Where what a readable base names ends does not depend on what follows it. -/
theorem BaseType.encoding_injective {first second : BaseType} (readable : first.IsReadable)
    (also : second.IsReadable) {behind after : Text}
    (same : first.encoding ++ behind = second.encoding ++ after) :
    first = second ∧ behind = after := by
  -- It is a written type without qualifiers and without references.
  have spelled : ∀ base : BaseType,
      spellFragments (WrittenType.mk [] (.full base)).fragments = base.encoding := by
    intro base
    simp
  rw [← spelled, ← spelled] at same
  have equal := WrittenType.spell_injective
    (show (WrittenType.mk [] (.full first)).IsReadable from ⟨by simp, readable⟩)
    (show (WrittenType.mk [] (.full second)).IsReadable from ⟨by simp, also⟩) same
  simpa using equal

/-- What a base names begins neither with the mark of template arguments nor with the closing one. -/
theorem BaseType.exists_head (base : BaseType) :
    ∃ char rest, base.encoding = char :: rest ∧ char ≠ 'I' ∧ char ≠ 'E' := by
  obtain ⟨char, rest, spelled, _, _, unopened, unclosed⟩ := (WrittenBase.full base).exists_head
  rw [WrittenBase.spell_full] at spelled
  exact ⟨char, rest, spelled, unopened, unclosed⟩

/-- A text does not begin with template arguments. -/
def IsUnopened (text : Text) : Prop :=
  text.head? ≠ some 'I'

/-- Items in front of a closing mark can be told from their texts when each of them can, and when none
begins with either mark. -/
theorem flatMap_closed_injective {α : Type} {encoding : α → Text} {valid : α → Prop}
    (headed : ∀ item, valid item →
      ∃ char rest, encoding item = char :: rest ∧ char ≠ 'I' ∧ char ≠ 'E')
    (separate : ∀ first second, valid first → valid second → ∀ behind after,
      IsUnopened behind → IsUnopened after →
      encoding first ++ behind = encoding second ++ after → first = second ∧ behind = after)
    {first second : List α} (readable : ∀ item ∈ first, valid item)
    (also : ∀ item ∈ second, valid item) {behind after : Text}
    (same : first.flatMap encoding ++ 'E' :: behind = second.flatMap encoding ++ 'E' :: after) :
    first = second ∧ behind = after := by
  -- What follows an item is another item or the closing mark.
  have unopened : ∀ (items : List α) (rest : Text), (∀ item ∈ items, valid item) →
      IsUnopened (items.flatMap encoding ++ 'E' :: rest) := by
    intro items rest each
    cases items with
    | nil => simp [IsUnopened]
    | cons item items =>
      obtain ⟨char, text, spelled, other, _⟩ := headed item (each item (List.mem_cons_self ..))
      simpa [IsUnopened, spelled] using other
  -- The closing mark is not the beginning of an item.
  have unclosed : ∀ item, valid item → ∀ rest text : Text,
      'E' :: rest ≠ encoding item ++ text := by
    intro item each rest text equal
    obtain ⟨char, inner, spelled, _, other⟩ := headed item each
    rw [spelled] at equal
    exact other (List.cons.inj equal).1.symm
  induction first generalizing second with
  | nil =>
    cases second with
    | nil => simpa using same
    | cons item items =>
      rw [List.flatMap_cons, List.append_assoc] at same
      exact absurd same (unclosed item (also item (List.mem_cons_self ..)) _ _)
  | cons item items ih =>
    cases second with
    | nil =>
      rw [List.flatMap_cons, List.append_assoc] at same
      exact absurd same.symm (unclosed item (readable item (List.mem_cons_self ..)) _ _)
    | cons other others =>
      rw [List.flatMap_cons, List.append_assoc, List.flatMap_cons, List.append_assoc] at same
      have itemsValid := fun inner member => readable inner (List.mem_cons_of_mem item member)
      have othersValid := fun inner member => also inner (List.mem_cons_of_mem other member)
      obtain ⟨equal, rest⟩ := separate item other (readable item (List.mem_cons_self ..))
        (also other (List.mem_cons_self ..)) _ _ (unopened items _ itemsValid)
        (unopened others _ othersValid) same
      obtain ⟨equals, behindSame⟩ := ih itemsValid othersValid rest
      exact ⟨by rw [equal, equals], behindSame⟩

/-- A readable name on a path can be told from its text, if no template arguments follow it. -/
theorem PathName.encoding_injective {first second : PathName} (readable : first.IsReadable)
    (also : second.IsReadable) {behind after : Text} (unopened : IsUnopened behind)
    (alsoUnopened : IsUnopened after)
    (same : first.encoding ++ behind = second.encoding ++ after) :
    first = second ∧ behind = after := by
  obtain ⟨name, arguments⟩ := first
  obtain ⟨otherName, otherArguments⟩ := second
  simp only [encoding, List.append_assoc] at same
  -- The names are told from their lengths, and the mark of arguments tells whether there are any.
  obtain ⟨named, rest⟩ := BaseType.encoding_injective
    (show (BaseType.source name).IsReadable from readable.1)
    (show (BaseType.source otherName).IsReadable from also.1) same
  have sameName : name = otherName := by simpa using named
  cases arguments with
  | none =>
    cases otherArguments with
    | none => exact ⟨by rw [sameName], rest⟩
    | some types =>
      simp only [List.nil_append] at rest
      simp [IsUnopened, rest] at unopened
  | some types =>
    cases otherArguments with
    | none =>
      simp only [List.nil_append] at rest
      simp [IsUnopened, ← rest] at alsoUnopened
    | some others =>
      simp only [List.cons_append, List.append_assoc, List.cons.injEq, true_and] at rest
      obtain ⟨equal, behindSame⟩ := flatMap_closed_injective
        (fun type _ => type.exists_head)
        (fun _ _ valid other _ _ _ _ equal => BaseType.encoding_injective valid other equal)
        (readable.2 types rfl) (also.2 others rfl) rest
      exact ⟨by rw [sameName, equal], behindSame⟩

/-- A name on a path begins with a digit. -/
theorem PathName.exists_head (path : PathName) :
    ∃ digit rest, path.encoding = digit :: rest ∧ digit.isDigit = true := by
  obtain ⟨digit, rest, spelled, isDigit⟩ := sourceName_eq_cons path.name
  exact ⟨digit, _, by rw [encoding, spelled, List.cons_append], isDigit⟩

/-- A mark that is no digit begins no name on a path. -/
theorem PathName.mark_cons_ne {mark : Char} (letter : mark.isDigit = false) (path : PathName)
    (rest text : Text) : mark :: rest ≠ path.encoding ++ text := by
  rw [encoding, List.append_assoc]
  exact mark_cons_ne_sourceName letter path.name rest _

/-- The readable names of a nested name can be told from their text, whatever follows it. -/
theorem PathName.flatMap_encoding_injective {first second : List PathName}
    (readable : ∀ name ∈ first, name.IsReadable) (also : ∀ name ∈ second, name.IsReadable)
    {behind after : Text}
    (same : first.flatMap encoding ++ 'E' :: behind = second.flatMap encoding ++ 'E' :: after) :
    first = second ∧ behind = after := by
  have headed : ∀ name : PathName, name.IsReadable →
      ∃ char rest, name.encoding = char :: rest ∧ char ≠ 'I' ∧ char ≠ 'E' := by
    intro name _
    obtain ⟨digit, text, spelled, isDigit⟩ := name.exists_head
    exact ⟨digit, text, spelled, ne_of_isDigit isDigit (by decide),
      ne_of_isDigit isDigit (by decide)⟩
  apply flatMap_closed_injective headed _ readable also same
  -- Between two names there is nothing that could open template arguments.
  intro name other valid otherValid _ _ unopened otherUnopened equal
  exact encoding_injective valid otherValid unopened otherUnopened equal

end Mangling
