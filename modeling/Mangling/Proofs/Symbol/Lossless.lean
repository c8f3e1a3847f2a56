import Mangling.Proofs.Symbol.WrittenType

/-! Compression is lossless: what is written for a parameter expands, over the table, to its full
encoding, and the text alone is enough to expand it. -/

namespace Mangling

/-- What a text stands for, if it is one type as it is written: it is read by itself, and every
reference in it is replaced by its entry. -/
def expandText (entries : List Text) (text : Text) : Option Text :=
  match readWritten decimalNumber text with
  | some (written, []) => expandFragments entries written.fragments
  -- A text with something behind its type is not what was written for one parameter.
  | _ => none

/-- The text of a readable type stands for what its fragments stand for. -/
theorem expandText_spell (entries : List Text) {written : WrittenType}
    (readable : written.IsReadable) :
    expandText entries (spellFragments written.fragments) =
      expandFragments entries written.fragments := by
  have read := readWritten_spell readable (fun index _ => isNumbered_decimalNumber index) []
  rw [List.append_nil] at read
  rw [expandText, read]

/-- The text in which a readable parameter is written in a form that fits stands for its full encoding,
also when more entries have been added. -/
theorem Form.expandText_of_fits {entries : List Text} {parameter : Parameter} {form : Form}
    (fits : form.Fits entries parameter) (readable : parameter.IsReadable) (later : List Text) :
    expandText (entries ++ later) (spellFragments (form.fragments parameter)) =
      some parameter.encoded := by
  have expanded := expandFragments_append (expand_of_fits fits) later
  rw [fragments_eq readable.based] at expanded ⊢
  rw [expandText_spell _ (isReadable_written fits readable), expanded]

/-- What is written for a readable parameter stands for its full encoding, also when more entries have
been added. -/
theorem Table.expandText_encode (table : Table) {parameter : Parameter}
    (readable : parameter.IsReadable) (later : List Text) :
    expandText (table.entries ++ later) (table.encode parameter).1 = some parameter.encoded := by
  rw [encode_eq]
  exact Form.expandText_of_fits (table.form_fits parameter) readable later

/-- Over the table at the end of a run over readable parameters every string of the run stands for a
full encoding. -/
theorem Table.expandText_encodeAll (table : Table) {parameters : List Parameter}
    (readable : ∀ parameter ∈ parameters, parameter.IsReadable) :
    (table.encodeAll parameters).1.map (expandText (table.encodeAll parameters).2.entries) =
      parameters.map fun parameter => some parameter.encoded := by
  induction parameters generalizing table with
  | nil => rfl
  | cons parameter parameters ih =>
    obtain ⟨first, others⟩ := List.forall_mem_cons.mp readable
    -- The last table is an extension of the one that the first parameter meets.
    obtain ⟨later, grown⟩ := table.entries_encodeAll (parameter :: parameters)
    have expanded := table.expandText_encode first later
    rw [grown] at expanded
    rw [List.map_cons, ← expanded, ← ih (table.encode parameter).2 others]
    rfl

/-- Over any table a parameter is written in a form that fits and that expands to its full encoding,
the old entries stay in front, and nothing is remembered exactly for what is bare or matched; so the
strings of a run expand, over the table at its end, to the full encodings. The texts of readable
parameters are enough for this, without the forms in which they were written. -/
theorem Table.encode_lossless (table : Table) :
    (∀ parameter : Parameter,
      table.entries <+: (table.encode parameter).2.entries ∧
      ((table.encode parameter).2.entries = table.entries ↔
        parameter.IsBare ∨ parameter.IsMatched table.entries) ∧
      (∃ form : Form, form.Fits table.entries parameter ∧
        (table.encode parameter).1 = spellFragments (form.fragments parameter) ∧
        expandFragments table.entries (form.fragments parameter) = some parameter.encoded) ∧
      (parameter.IsReadable →
        expandText table.entries (table.encode parameter).1 = some parameter.encoded)) ∧
    ∀ parameters : List Parameter,
      (table.encodeAll parameters).1 =
        ((table.formAll parameters).map fun turn => spellFragments (turn.2.fragments turn.1)) ∧
      ((table.formAll parameters).map fun turn =>
          expandFragments (table.encodeAll parameters).2.entries (turn.2.fragments turn.1)) =
        (parameters.map fun parameter => some parameter.encoded) ∧
      ((∀ parameter ∈ parameters, parameter.IsReadable) →
        (table.encodeAll parameters).1.map (expandText (table.encodeAll parameters).2.entries) =
          parameters.map fun parameter => some parameter.encoded) := by
  refine ⟨?_, fun parameters => ⟨table.encodeAll_eq parameters, table.expand_formAll parameters,
    table.expandText_encodeAll⟩⟩
  intro parameter
  have fits := table.form_fits parameter
  refine ⟨?_, ?_, ⟨table.form parameter, fits, ?_, Form.expand_of_fits fits⟩, ?_⟩
  · rw [entries_encode]
    exact List.prefix_append _ _
  · -- The entries stay the same exactly when nothing is remembered.
    rw [entries_encode, List.append_right_eq_self]
    exact Form.remembered_eq_nil_iff fits
  · rw [encode_eq]
  · intro readable
    simpa using table.expandText_encode readable []

/-- References to a class, to a scope and to a whole path are expanded from the text alone. -/
theorem Table.encode_lossless_shared :
    let parameters := ["Foo*", "Foo::Bar", "Foo::Bar**", "char const*", "Foo"].map
      fun spelling => Parameter.spelled spelling.toList
    let run := Table.encodeAll {} parameters
    run.1 = ["P3Foo", "NS_3BarE", "PPS1_", "PKc", "S_"].map String.toList ∧
      run.1.map (expandText run.2.entries) =
        ["P3Foo", "N3Foo3BarE", "PPN3Foo3BarE", "PKc", "3Foo"].map fun text => some text.toList := by
  intro parameters run
  refine ⟨by decide +kernel, ?_⟩
  have expanded := ((Table.encode_lossless {}).2 parameters).2.2 (by decide +kernel)
  exact expanded.trans (by decide +kernel)

/-- The text alone is not enough for a parameter whose qualifiers are made like a reference: it is
written as a match for the class would be. -/
example :
    let table : Table := { entries := ["3Foo".toList] }
    let named : Parameter := { spelling := [], base := "Foo".toList, qualifiers := [] }
    let marks : Parameter := { spelling := [], base := [], qualifiers := "S_".toList }
    (table.encode named).1 = (table.encode marks).1 ∧ named.encoded ≠ marks.encoded := by
  decide +kernel

end Mangling
