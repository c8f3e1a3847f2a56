import Mangling.Proofs.Encoding.Spelling
import Mangling.Proofs.Signature.Heading
import Mangling.Proofs.Symbol.Accepted
import Mangling.Proofs.Symbol.WrittenType

/-! A scanner carries nothing over from one signature to the next, so the mark of a constant member is
written for the member word of the signature itself. -/

namespace Mangling

/-- The fragments with which the symbol of a constant member begins. -/
def constantMarks : List Text :=
  [symbolMark, ['N'], ['K']]

/-- One scanner for all signatures gives what a fresh one for each of them gives. -/
theorem Scanner.scanAll_eq (scanner : Scanner) (signatures : List Text) :
    scanner.scanAll signatures = signatures.map scanSignature := by
  induction signatures generalizing scanner with
  | nil => rfl
  | cons signature signatures ih =>
    -- A scan starts without the name and the scope that it finds in its scanner.
    have fresh : scan { scanner with symbol := signature } = scanSignature signature := rfl
    rw [scanAll, fresh, ih, List.map_cons]

/-- The marks of a constant member are written exactly for a constant declaration with a separator. -/
theorem Draft.constantMarks_prefix_iff (symbol : Text) (isConst : Bool) {tokens : List Token}
    (ends : ∃ token ∈ tokens, token.isFinal = true) :
    constantMarks <+: (Draft.assemble { symbol, isConst } tokens).2.out ↔
      isConst = true ∧
        1 < (pathComponents (tokens.takeWhile fun token => !token.isFinal)).length := by
  let path := tokens.takeWhile fun token => !token.isFinal
  have marked : ∀ codes,
      constantMarks <+: symbolMark :: (pathFragments isConst (pathComponents path) ++ codes) ↔
        isConst = true ∧ 1 < (pathComponents path).length := by
    intro codes
    have lettered := @ne_letter_of_mem_pathComponents path
    cases components : pathComponents path with
    | nil => exact absurd components (pathComponents_ne_nil path)
    | cons first others =>
      have firstN : first ≠ ['N'] := lettered (by simp [components]) rfl (by decide)
      have firstK : first ≠ ['K'] := lettered (by simp [components]) rfl (by decide)
      -- Behind the first mark, or the first two, the first component stands.
      cases others with
      | nil => simp [constantMarks, pathFragments, openingMarks, firstN.symm]
      | cons second others =>
        cases isConst <;> simp [constantMarks, pathFragments, openingMarks, firstK.symm]
  rcases assemble_cases symbol isConst tokens with
    ⟨found, _⟩ | ⟨content, items, start, _, out, _, written, assembled⟩ | ⟨_, _, out⟩
  · obtain ⟨token, member, final⟩ := ends
    exact absurd final (List.find?_eq_none.mp found token member)
  · rw [assembled, written, out]
    exact marked _
  · have alone := marked []
    rw [List.append_nil] at alone
    rw [out]
    exact alone

/-- A text does not begin with the marks of a nested constant name unless its first two letters are
these. -/
theorem not_constant_cons {char : Char} {text : Text}
    (other : char ≠ 'N' ∨ ∃ next rest, text = next :: rest ∧ next ≠ 'K') :
    ¬"NK".toList <+: char :: text := by
  intro front
  obtain ⟨same, later⟩ := List.cons_prefix_cons.mp front
  rcases other with different | ⟨next, rest, rfl, different⟩
  · exact different same.symm
  · exact different (List.cons_prefix_cons.mp later).1.symm

/-- A path has a name, if a base is one. -/
theorem Parameter.ne_nil_of_baseType {parameter : Parameter} {names : List Text}
    (nested : parameter.baseType = .nested names) : names ≠ [] := by
  unfold baseType at nested
  split at nested
  · cases nested
  · split at nested
    next long =>
      exact BaseType.nested.inj nested ▸ List.ne_nil_of_length_pos (Nat.lt_of_succ_lt long)
    next => cases nested

/-- A written base does not begin with the marks of a nested constant name. -/
theorem WrittenBase.not_constant {base : WrittenBase}
    (named : ∀ names, base = .full (.nested names) → names ≠ []) (rest : Text) :
    ¬"NK".toList <+: spellFragments base.fragments ++ rest := by
  cases base with
  | full base =>
    rw [spell_full]
    cases base with
    | builtin kind => cases kind <;> exact not_constant_cons (Or.inl (by decide))
    | source name =>
      obtain ⟨digit, behind, spelled, isDigit⟩ := sourceName_eq_cons name
      rw [BaseType.encoding, spelled]
      exact not_constant_cons (Or.inl (ne_of_isDigit isDigit rfl))
    | nested names =>
      -- Behind the mark of the nested name stands the length of its first name.
      obtain ⟨name, others, rfl⟩ := List.exists_cons_of_ne_nil (named names rfl)
      obtain ⟨digit, behind, spelled, isDigit⟩ := sourceName_eq_cons name
      rw [BaseType.encoding, nestedName, List.flatMap_cons, spelled]
      exact not_constant_cons (Or.inr ⟨digit, _, rfl, ne_of_isDigit isDigit rfl⟩)
  | reference index =>
    rw [spell_reference]
    exact not_constant_cons (Or.inl (by decide))
  | member index names =>
    rw [spell_member]
    exact not_constant_cons (Or.inr ⟨'S', _, rfl, by decide⟩)

/-- What is written for a parameter with a base and without constness on the outside does not begin
with the marks of a nested constant name. -/
theorem Table.not_constant_encode (table : Table) {parameter : Parameter}
    (based : parameter.base ≠ []) (outer : ∀ code ∈ parameter.qualifiers.head?, code = 'P')
    (rest : Text) : ¬"NK".toList <+: (table.encode parameter).1 ++ rest := by
  have written : ((table.form parameter).written parameter).qualifiers <+: parameter.qualifiers := by
    cases table.form parameter with
    | whole | member => exact List.prefix_refl _
    | reference split index => exact List.take_prefix split _
  rw [encode_eq, Form.fragments_eq based, WrittenType.spell_eq, List.append_assoc]
  cases qualifiers : ((table.form parameter).written parameter).qualifiers with
  | cons code codes =>
    -- The first qualifier that is written is the outermost one of the parameter.
    obtain ⟨later, split⟩ := written
    have pointer : code = 'P' := outer code (by simp [← split, qualifiers])
    exact not_constant_cons (Or.inl (by rw [pointer]; decide))
  | nil =>
    refine WrittenBase.not_constant (fun names full => ?_) rest
    cases form : table.form parameter with
    | whole =>
      rw [form] at full
      exact Parameter.ne_nil_of_baseType (WrittenBase.full.inj full)
    | reference split index => simp [form, Form.written] at full
    | member depth index => simp [form, Form.written] at full

/-- A parameter list does not begin with the marks of a nested constant name. -/
theorem Table.not_constant_encodeList (table : Table) (content : Text) (items : List Text) :
    ¬"NK".toList <+: (table.encodeList content items).1.flatten := by
  rw [encodeList]
  split
  · exact not_constant_cons (Or.inl (by decide))
  · cases described : describedParameters items with
    | nil => simp [encodeAll]
    | cons parameter parameters =>
      have member : parameter ∈ describedParameters items := by simp [described]
      obtain ⟨spelling, _, rfl⟩ := List.mem_map.mp (List.mem_filter.mp member).1
      exact table.not_constant_encode (base_ne_nil_of_mem_describedParameters member)
        (head?_dropWhile_const fun _ => mem_readQualifiers) _

/-- The path of an accepted signature, with anything behind it that does not begin with the marks of a
nested constant name, begins with these exactly if it is that of a constant declaration with a
separator. -/
theorem IsTokenPath.constant_prefix_iff {path : List Token} (isPath : IsTokenPath path)
    (isConst : Bool) {back : Text} (unmarked : ¬"NK".toList <+: back) :
    "NK".toList <+: (pathFragments isConst (pathComponents path)).flatten ++ back ↔
      isConst = true ∧ .scope ∈ path := by
  have headed : path.flatMap Token.encoding = [] ∨
      ∃ digit rest, path.flatMap Token.encoding = digit :: rest ∧ digit.isDigit = true :=
    (em _).imp_right isPath.exists_head
  rw [pathFragments, List.flatten_append, List.flatten_append, flatten_pathComponents,
    List.append_assoc, List.append_assoc, openingMarks, closingMarks]
  simp only [one_lt_length_pathComponents]
  by_cases nested : .scope ∈ path
  · cases isConst with
    | true => simp [nested]
    | false =>
      simp only [nested, if_true, Bool.false_eq_true, false_and, iff_false]
      -- Behind the mark of the nested name stands a length, or the mark that closes it.
      rcases headed with none | ⟨digit, rest, spelled, isDigit⟩
      · rw [none]
        exact not_constant_cons (Or.inr ⟨'E', _, rfl, by decide⟩)
      · rw [spelled]
        exact not_constant_cons (Or.inr ⟨digit, _, rfl, ne_of_isDigit isDigit rfl⟩)
  · simp only [nested, if_false, and_false, iff_false]
    rcases headed with none | ⟨digit, rest, spelled, isDigit⟩
    · rw [none]
      exact unmarked
    · rw [spelled]
      exact not_constant_cons (Or.inl (ne_of_isDigit isDigit rfl))

/-- In the tokens of a signature the member word stands only behind a path with a separator. -/
theorem IsTokenEnding.const_mem_iff {path ending : List Token} (isPath : IsTokenPath path)
    (isEnding : IsTokenEnding (.scope ∈ path) ending) :
    .const ∈ path ++ ending ↔
      (path ++ ending).any (·.kind == .const) = true ∧ .scope ∈ path := by
  have kinded : ∀ token : Token, (token.kind == .const) = true ↔ .const = token := by
    intro token
    cases token <;> simp [Token.kind]
  have unmarked : .const ∉ path := fun member => by
    simpa [Token.kind] using isPath.kinds _ member
  rw [List.any_eq_true]
  simp only [kinded, exists_eq_right']
  refine ⟨fun member => ⟨member, ?_⟩, And.left⟩
  have behind := (List.mem_append.mp member).resolve_left unmarked
  cases isEnding with
  | stop | params => simp at behind
  | member nested => exact nested

/-- The symbol of a path and an ending begins with the marks of a constant member exactly if the member
word is in the ending, unless it is a name that is left as it is. -/
theorem exists_symbol_of_path {signature : Text} {path ending : List Token}
    (scanned : (scanSignature signature).result = .ok (path ++ ending)) (isPath : IsTokenPath path)
    (isEnding : IsTokenEnding (.scope ∈ path) ending) :
    ∃ symbol, (mangle signature).outcome = .ok symbol ∧
      ((.scope ∈ path ∨ ∃ content items, .params content items ∈ path ++ ending) →
        ("_ZNK".toList <+: symbol ↔ .const ∈ path ++ ending)) ∧
      (¬(.scope ∈ path ∨ ∃ content items, .params content items ∈ path ++ ending) →
        symbol = signature) := by
  have going := isPath.isFinal_eq_false
  have marked := isEnding.const_mem_iff isPath
  rw [mangle_eq_closedSymbol scanned]
  generalize (path ++ ending).any (·.kind == .const) = isConst at marked ⊢
  have begins : ∀ back : Text, ¬"NK".toList <+: back →
      ("_ZNK".toList <+:
        symbolMark ++ ((pathFragments isConst (pathComponents path)).flatten ++ back) ↔
          .const ∈ path ++ ending) := by
    intro back unmarked
    have behind : "_ZNK".toList = symbolMark ++ "NK".toList := rfl
    rw [behind, List.prefix_append_right_inj, isPath.constant_prefix_iff isConst unmarked, marked]
  have listed : ∀ (content : Text) (items : List Text) (tokens : List Token),
      ∃ symbol, closedSymbol signature isConst (path ++ .params content items :: tokens) =
          .ok symbol ∧ ("_ZNK".toList <+: symbol ↔ .const ∈ path ++ ending) := by
    intro content items tokens
    refine ⟨_, closedSymbol_params _ _ going _ _ _, ?_⟩
    rw [List.append_assoc]
    exact begins _ (Table.not_constant_encodeList _ content items)
  cases isEnding with
  | stop =>
    refine ⟨_, closedSymbol_stop _ _ going _, ?_⟩
    simp only [one_lt_length_pathComponents]
    by_cases nested : .scope ∈ path
    · have alone := begins [] (by decide)
      rw [List.append_nil] at alone
      exact ⟨fun _ => by rwa [if_pos nested], fun neither => absurd (Or.inl nested) neither⟩
    · rw [if_neg nested]
      refine ⟨?_, fun _ => rfl⟩
      rintro (separated | ⟨content, items, member⟩)
      · exact absurd separated nested
      · -- No parameter list is on the path, and none behind it.
        rcases List.mem_append.mp member with onPath | behind
        · exact absurd (going _ onPath) (by simp [Token.isFinal])
        · simp at behind
  | params content items =>
    obtain ⟨symbol, written, begun⟩ := listed content items [.stop]
    exact ⟨symbol, written, fun _ => begun,
      fun neither => absurd (Or.inr ⟨content, items, by simp⟩) neither⟩
  | member nested content items =>
    obtain ⟨symbol, written, begun⟩ := listed content items [.const, .stop]
    exact ⟨symbol, written, fun _ => begun, fun neither => absurd (Or.inl nested) neither⟩

/-- A scanner that reads signatures one after the other gives for each of them what a fresh one gives.
After each scan, whatever it came to, no name is pending, and the scanner is inside a scope exactly if
the head has a separator. Of accepted tokens the member word stands only beside a separator; the
marks of a constant member are the first fragments of the symbol exactly if the word is there, and
with them the symbol begins, unless it is a name that is left as it is. -/
theorem Scanner.scanAll_fresh (scanner : Scanner) (signatures : List Text) :
    scanner.scanAll signatures = signatures.map scanSignature ∧ ∀ signature ∈ signatures,
      Nonempty (Heading signature) ∧
      (∀ heading : Heading signature, (scanSignature signature).scanner =
        { symbol := signature, name := [], inScope := heading.head.isNested }) ∧
      ∀ tokens, (scanSignature signature).result = .ok tokens →
        (.const ∈ tokens → .scope ∈ tokens) ∧
        (constantMarks <+: (Draft.assemble
          { symbol := signature, isConst := tokens.any (·.kind == .const) } tokens).2.out ↔
            .const ∈ tokens) ∧
        ∃ symbol, (mangle signature).outcome = .ok symbol ∧
          ((.scope ∈ tokens ∨ ∃ content items, .params content items ∈ tokens) →
            ("_ZNK".toList <+: symbol ↔ .const ∈ tokens)) ∧
          (¬(.scope ∈ tokens ∨ ∃ content items, .params content items ∈ tokens) →
            symbol = signature) := by
  refine ⟨scanner.scanAll_eq signatures, fun signature _ => ?_⟩
  refine ⟨nonempty_heading signature, fun heading => heading.leaves.scanner, ?_⟩
  intro tokens scanned
  obtain ⟨path, ending, rfl, isPath, isEnding⟩ := exists_path_of_scanSignature scanned
  have marked := isEnding.const_mem_iff isPath
  have separated : .scope ∈ path ++ ending ↔ .scope ∈ path := by
    cases isEnding <;> simp
  have ends : ∃ token ∈ path ++ ending, token.isFinal = true :=
    ⟨.stop, by cases isEnding <;> simp, rfl⟩
  have front : (path ++ ending).takeWhile (fun token => !token.isFinal) = path := by
    have going := isPath.isFinal_eq_false
    cases isEnding with
    | stop => exact (@path_of_isFinal path going .stop rfl []).1
    | params content items => exact (@path_of_isFinal path going (.params content items) rfl _).1
    | member _ content items => exact (@path_of_isFinal path going (.params content items) rfl _).1
  rw [Draft.constantMarks_prefix_iff _ _ ends, front, one_lt_length_pathComponents, separated]
  exact ⟨fun member => (marked.mp member).2, marked.symm,
    exists_symbol_of_path scanned isPath isEnding⟩

end Mangling
