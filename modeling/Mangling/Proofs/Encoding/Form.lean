import Mangling.Proofs.Encoding.BaseType
import Mangling.Proofs.Encoding.Search

/-! The forms in which a parameter is written over a table, as fragments that can be expanded. -/

namespace Mangling

/-- A piece of a symbol: text that stands for itself, or a reference that stands for an entry. -/
inductive Fragment where
  /-- Text that stands for itself. -/
  | literal (text : Text)
  /-- A reference that stands for a whole entry. -/
  | entry (index : Nat)
  /-- A reference at the head of a nested name, which stands for the names of an entry. -/
  | scope (index : Nat)
  deriving DecidableEq

/-- The digits of a reference, of which the first has none. -/
def referenceDigits (index : Nat) : Text :=
  -- The numbers start at zero with the second reference.
  if index = 0 then [] else decimal (index - 1)

/-- A fragment as it is written, with a reference as its digits between two marks. -/
def Fragment.spelling : Fragment → Text
  | .literal text => text
  -- What a reference stands for does not show in how it is written.
  | .entry index => 'S' :: (referenceDigits index ++ ['_'])
  | .scope index => 'S' :: (referenceDigits index ++ ['_'])

/-- The names of an entry, without the marks that a nested name has around them. -/
def insideOf (entry : Text) : Text :=
  match entry with
  -- Only a nested name begins with its mark, and a source name has none.
  | 'N' :: names => names.dropLast
  | _ => entry

/-- What a fragment stands for, with the entry in the place of its reference. -/
def Fragment.expansion (entries : List Text) : Fragment → Option Text
  | .literal text => some text
  -- A reference beyond the entries stands for nothing.
  | .entry index => entries[index]?
  | .scope index => entries[index]?.map insideOf

/-- Fragments written one behind the other. -/
def spellFragments (fragments : List Fragment) : Text :=
  fragments.flatMap Fragment.spelling

/-- What fragments stand for, one behind the other. -/
def expandFragments (entries : List Text) : List Fragment → Option Text
  | [] => some []
  | fragment :: fragments =>
    -- One reference without an entry spoils the whole.
    match fragment.expansion entries, expandFragments entries fragments with
    | some front, some back => some (front ++ back)
    | _, _ => none

/-- The forms in which a parameter can be written. -/
inductive Form where
  /-- In full. -/
  | whole
  /-- With a reference for the base and its inner qualifiers, so many qualifiers left outside. -/
  | reference (split index : Nat)
  /-- As a nested name whose head, so many names deep, is a reference. -/
  | member (depth index : Nat)
  deriving DecidableEq

/-- The fragments of a parameter in a form. -/
def Form.fragments (parameter : Parameter) : Form → List Fragment
  | .whole => [.literal parameter.qualifiers, .literal parameter.encodedBase]
  | .reference split index => [.literal (parameter.qualifiers.take split), .entry index]
  | .member depth index =>
    -- The marks of the nested name stay around the reference and the names behind it.
    [.literal parameter.qualifiers, .literal ['N'], .scope index,
      .literal ((parameter.scopeNames.drop depth).flatMap sourceName ++ ['E'])]

/-- The number of qualifiers that a form leaves outside its reference. -/
def Form.outside : Form → Nat
  | .whole => 0
  | .reference split _ => split
  -- Around a nested name the qualifiers are candidates for the writer as well.
  | .member _ _ => 0

/-- The index that a form refers to, if it does. -/
def Form.index? : Form → Option Nat
  | .whole => none
  | .reference _ index => some index
  | .member _ index => some index

/-- The form that a table gives to a parameter. -/
def Table.form (table : Table) (parameter : Parameter) : Form :=
  -- A fundamental type alone is written in full without a search.
  if parameter.isBuiltin && parameter.qualifiers.isEmpty then .whole
  else
    match table.find parameter.qualifiers parameter.encodedBase with
    | some (index, split) => .reference split index
    | none =>
      if parameter.isScoped then
        -- The whole path is unknown here, so only shorter ones are looked up.
        match table.knownDepth parameter.scopeNames (parameter.scopeNames.length - 1) with
        | some (depth, index) => .member depth index
        | none => .whole
      else .whole

/-- The encodings of a parameter that a table can remember, when paths up to a depth are known. -/
def Parameter.candidates (parameter : Parameter) (known : Nat) : List Text :=
  -- A fundamental type is never remembered by itself, but its qualified forms are.
  (if parameter.isScoped then pathsBehind known parameter.scopeNames
    else if parameter.isBuiltin then []
    else [parameter.encodedBase]) ++
  qualifiedForms parameter.qualifiers parameter.encodedBase

/-- What is remembered when a parameter is written in a form. -/
def Form.remembered (parameter : Parameter) : Form → List Text
  | .whole => parameter.candidates 0
  -- A match adds nothing, not even the forms under the qualifiers left outside.
  | .reference _ _ => []
  | .member depth _ => parameter.candidates depth

/-- An unqualified fundamental type. -/
def Parameter.IsBare (parameter : Parameter) : Prop :=
  -- It is as short as a reference, so no table is asked about it.
  parameter.isBuiltin = true ∧ parameter.qualifiers = []

/-- Some entry is the base under some of the innermost qualifiers, perhaps none or all of them. -/
def Parameter.IsMatched (entries : List Text) (parameter : Parameter) : Prop :=
  -- The split counts the qualifiers that the entry leaves out.
  ∃ split ≤ parameter.qualifiers.length,
    parameter.qualifiers.drop split ++ parameter.encodedBase ∈ entries

/-- A form fits a table when its reference leads to what it stands for, and when nothing better was
to be found. -/
def Form.Fits (entries : List Text) (parameter : Parameter) : Form → Prop
  | .whole =>
    -- Either nothing was searched for, or neither a match nor a known path was there.
    parameter.IsBare ∨
      (¬parameter.IsMatched entries ∧
        (parameter.isScoped = true → ∀ depth, 1 ≤ depth → depth < parameter.scopeNames.length →
          scopePath (parameter.scopeNames.take depth) ∉ entries))
  | .reference split index =>
    ¬parameter.IsBare ∧ split ≤ parameter.qualifiers.length ∧
      entries[index]? = some (parameter.qualifiers.drop split ++ parameter.encodedBase)
  | .member depth index =>
    -- The depth is the largest one short of the whole path.
    ¬parameter.IsMatched entries ∧ parameter.isScoped = true ∧
      1 ≤ depth ∧ depth < parameter.scopeNames.length ∧
      entries[index]? = some (scopePath (parameter.scopeNames.take depth)) ∧
      ∀ deeper, depth < deeper → deeper < parameter.scopeNames.length →
        scopePath (parameter.scopeNames.take deeper) ∉ entries

/-- A back reference is its digits between two marks. -/
theorem backReference_eq (index : Nat) :
    backReference index = 'S' :: (referenceDigits index ++ ['_']) := by
  cases index with
  | zero => rfl
  | succ before =>
    -- The number is one less than the index, and so not negative.
    have positive : ¬((before + 1 : Nat) : Int) = 0 := by omega
    have less : ((before + 1 : Nat) : Int) - 1 = Int.ofNat before := by simp
    rw [backReference, if_neg positive, less]
    rfl

/-- A scoped base is encoded as a nested name. -/
theorem Parameter.encodedBase_of_isScoped {parameter : Parameter}
    (nested : parameter.isScoped = true) :
    parameter.encodedBase = nestedName parameter.scopeNames := by
  rw [encodedBase, if_pos nested]

/-- The form that a table gives to a parameter fits the table. -/
theorem Table.form_fits (table : Table) (parameter : Parameter) :
    (table.form parameter).Fits table.entries parameter := by
  -- The cases follow the searches in the order in which they are made.
  unfold form
  by_cases bare : (parameter.isBuiltin && parameter.qualifiers.isEmpty) = true
  · rw [if_pos bare]
    simp only [Bool.and_eq_true, List.isEmpty_iff] at bare
    exact Or.inl bare
  · rw [if_neg bare]
    simp only [Bool.and_eq_true, List.isEmpty_iff] at bare
    cases searched : table.find parameter.qualifiers parameter.encodedBase with
    | some place =>
      obtain ⟨index, split⟩ := place
      obtain ⟨bounded, located⟩ := Table.find_eq_some searched
      exact ⟨bare, bounded, located⟩
    | none =>
      have missed : ¬parameter.IsMatched table.entries := by
        rintro ⟨split, bounded, member⟩
        exact Table.find_eq_none_iff.mp searched split bounded member
      by_cases nested : parameter.isScoped = true
      · simp only [if_pos nested]
        obtain ⟨_, long⟩ := Parameter.isScoped_iff.mp nested
        cases known : table.knownDepth parameter.scopeNames (parameter.scopeNames.length - 1) with
        | some found =>
          obtain ⟨depth, index⟩ := found
          obtain ⟨positive, bounded, located, deepest⟩ := Table.knownDepth_eq_some known
          refine ⟨missed, nested, positive, by omega, located, ?_⟩
          intro deeper beyond within
          exact deepest deeper beyond (by omega)
        | none =>
          refine Or.inr ⟨missed, ?_⟩
          intro _ depth positive bounded
          exact Table.knownDepth_eq_none known depth positive (by omega)
      · simp only [if_neg nested]
        exact Or.inr ⟨missed, fun assumed => absurd assumed nested⟩

/-- Encoding a parameter writes its form and remembers what belongs to that form. -/
theorem Table.encode_eq (table : Table) (parameter : Parameter) :
    table.encode parameter =
      (spellFragments ((table.form parameter).fragments parameter),
        table.extended ((table.form parameter).remembered parameter)) := by
  -- Both sides make the same searches, and each outcome is compared by itself.
  rw [encode, form]
  by_cases bare : (parameter.isBuiltin && parameter.qualifiers.isEmpty) = true
  · simp only [if_pos bare]
    simp only [Bool.and_eq_true, List.isEmpty_iff] at bare
    obtain ⟨builtin, unqualified⟩ := bare
    simp [Form.fragments, Form.remembered, spellFragments, Fragment.spelling,
      Parameter.candidates, Parameter.isScoped, builtin, unqualified, qualifiedForms,
      Table.extended]
  · simp only [if_neg bare]
    cases searched : table.find parameter.qualifiers parameter.encodedBase with
    | some place =>
      simp [Form.fragments, Form.remembered, spellFragments, Fragment.spelling, Table.extended,
        backReference_eq]
    | none =>
      by_cases nested : parameter.isScoped = true
      · simp only [if_pos nested, encodeScoped]
        cases known : table.knownDepth parameter.scopeNames (parameter.scopeNames.length - 1) with
        | some found =>
          simp [Form.fragments, Form.remembered, spellFragments, Fragment.spelling,
            Parameter.candidates, nested, Table.extended, backReference_eq]
        | none =>
          -- Without a known path the nested name is the base itself.
          simp [Form.fragments, Form.remembered, spellFragments, Fragment.spelling,
            Parameter.candidates, nested, Table.extended,
            Parameter.encodedBase_of_isScoped nested, nestedName]
      · simp only [if_neg nested]
        by_cases builtin : parameter.isBuiltin = true
        · simp [Form.fragments, Form.remembered, spellFragments, Fragment.spelling,
            Parameter.candidates, nested, builtin, Table.extended]
        · simp [Form.fragments, Form.remembered, spellFragments, Fragment.spelling,
            Parameter.candidates, nested, builtin, Table.extended]

end Mangling
