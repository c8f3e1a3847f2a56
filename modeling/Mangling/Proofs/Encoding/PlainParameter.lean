import Mangling.Proofs.Encoding.BaseType
import Mangling.Proofs.Encoding.Spelling
import Mangling.Proofs.Text.Joined
import Mangling.Text.Alphanumeric

/-! Parameters over fundamental types and paths of identifiers. -/

namespace Mangling

/-- An identifier has letters, digits and low lines of ASCII only, and no digit in front. -/
structure IsIdentifier (text : Text) : Prop where
  named : IsName text
  plain : ∀ char ∈ text, char.isAlphanum = true ∨ char = '_'

/-- A parameter that is read from its spelling, with a fundamental type or a path of identifiers for
its base. -/
structure Parameter.IsPlain (parameter : Parameter) : Prop where
  read : Parameter.ofSpelling parameter.spelling = .ok parameter
  typed : parameter.isBuiltin = true ∨
    ∃ names ≠ [], (∀ name ∈ names, IsIdentifier name) ∧ parameter.base = joinNames names

/-- Whether a text is an identifier can be decided. -/
instance (text : Text) : Decidable (IsIdentifier text) :=
  decidable_of_iff
    ((text ≠ [] ∧ startsWithDigit text = false) ∧
      text.all (fun char => char.isAlphanum || char == '_') = true)
    (by
      have each : text.all (fun char => char.isAlphanum || char == '_') = true ↔
          ∀ char ∈ text, char.isAlphanum = true ∨ char = '_' := by simp
      rw [each]
      exact ⟨fun ⟨named, plain⟩ => { named, plain },
        fun identifier => ⟨identifier.named, identifier.plain⟩⟩)

/-- The names that a base is made of, of which a fundamental type has none. -/
def BaseType.names : BaseType → List Text
  | .builtin _ => []
  | .source name => [name]
  | .nested names => names

/-- The printed spelling of what a base names. -/
def BaseType.spelling : BaseType → Text
  | .builtin kind => kind.spelling
  | .source name => name
  | .nested names => joinNames names

/-- The characters of identifiers lie between the digits and the small letters. -/
theorem IsIdentifier.bounds {text : Text} (identifier : IsIdentifier text) {char : Char}
    (member : char ∈ text) : 48 ≤ char.toNat ∧ char.toNat ≤ 122 := by
  rcases identifier.plain char member with letter | lowLine
  · exact toNat_of_isAlphanum letter
  · rw [lowLine]
    decide

/-- A character that is neither a letter nor a digit, nor a low line, is in no identifier. -/
theorem IsIdentifier.not_mem {text : Text} (identifier : IsIdentifier text) {char : Char}
    (symbol : char.isAlphanum = false) (other : char ≠ '_') : char ∉ text := by
  intro member
  rcases identifier.plain char member with letter | same
  · simp [letter] at symbol
  · exact other same

/-- The characters of identifiers have width one. -/
theorem IsIdentifier.narrow {text : Text} (identifier : IsIdentifier text) :
    ∀ char ∈ text, char.utf8Size = 1 := by
  intro char member
  have bounds := identifier.bounds member
  rw [Char.utf8Size_eq_one_iff, UInt32.le_iff_toNat_le]
  show char.toNat ≤ 127
  omega

/-- The characters of identifiers are visible. -/
theorem IsIdentifier.isBlank_eq_false {text : Text} (identifier : IsIdentifier text) {char : Char}
    (member : char ∈ text) : isBlank char = false := by
  have bounds := identifier.bounds member
  simp only [isBlank, CharRanges.has, blankRanges, List.any_cons, List.any_nil, Bool.or_false,
    Bool.or_eq_false_iff, Bool.and_eq_false_iff, decide_eq_false_iff_not]
  omega

/-- A character of a path is a colon or a character of a name. -/
theorem mem_joinNames {names : List Text} {char : Char} (member : char ∈ joinNames names) :
    char = ':' ∨ ∃ name ∈ names, char ∈ name := by
  induction names with
  | nil => simp [joinNames] at member
  | cons name others ih =>
    cases others with
    | nil => exact Or.inr ⟨name, by simp, by simpa [joinNames] using member⟩
    | cons other others =>
      simp only [joinNames, List.intercalate_cons_cons, List.append_assoc, List.mem_append]
        at member ih
      rcases member with first | mark | rest
      · exact Or.inr ⟨name, by simp, first⟩
      · exact Or.inl (by simpa [scopeMark] using mark)
      · rcases ih rest with colon | ⟨inner, inside, later⟩
        · exact Or.inl colon
        · exact Or.inr ⟨inner, List.mem_cons_of_mem _ inside, later⟩

/-- The base of a fundamental type has visible characters, and no comma among them. -/
theorem Builtin.characters_of_ofSpelling {spelling : Text} {kind : Builtin}
    (found : Builtin.ofSpelling? spelling = some kind) :
    (∃ char ∈ spelling, isBlank char = false) ∧ ',' ∉ spelling := by
  -- Each of the finitely many spellings begins with a visible character.
  have visible : ∀ {text rest : Text} {char : Char}, text = char :: rest → isBlank char = false →
      ∃ char ∈ text, isBlank char = false := by
    intro text rest char spelled visible
    exact ⟨char, by simp [spelled], visible⟩
  rcases Builtin.spelling_of_ofSpelling found with same | ⟨same, _⟩
  · rw [same]
    cases kind <;> exact ⟨visible rfl rfl, by decide⟩
  · rw [same]
    exact ⟨visible rfl rfl, by decide⟩

/-- A plain parameter is the one that its spelling describes. -/
theorem Parameter.IsPlain.spelled {parameter : Parameter} (plain : parameter.IsPlain) :
    Parameter.spelled parameter.spelling = parameter := by
  have read := plain.read
  rw [ofSpelling_eq, Except.ok.injEq] at read
  exact read

/-- The base of a plain parameter has visible characters, and no comma among them. -/
theorem Parameter.IsPlain.characters {parameter : Parameter} (plain : parameter.IsPlain) :
    (∃ char ∈ parameter.base, isBlank char = false) ∧ ',' ∉ parameter.base := by
  rcases plain.typed with builtin | ⟨names, nonempty, identifiers, joined⟩
  · obtain ⟨kind, found⟩ := Option.isSome_iff_exists.mp builtin
    exact Builtin.characters_of_ofSpelling found
  · rw [joined]
    constructor
    · -- Any character of a name is one of them.
      obtain ⟨name, inside⟩ := List.exists_mem_of_ne_nil names nonempty
      obtain ⟨char, member⟩ := List.exists_mem_of_ne_nil name (identifiers name inside).named.1
      exact ⟨char, mem_intercalate inside member, (identifiers name inside).isBlank_eq_false member⟩
    · intro comma
      rcases mem_joinNames comma with colon | ⟨name, inside, member⟩
      · exact absurd colon (by decide)
      · exact (identifiers name inside).not_mem rfl (by decide) member

/-- The spelling of a plain parameter is not blank. -/
theorem Parameter.IsPlain.exists_visible {parameter : Parameter} (plain : parameter.IsPlain) :
    ∃ char ∈ parameter.spelling, isBlank char = false := by
  obtain ⟨char, member, visible⟩ := plain.characters.1
  rw [← plain.spelled] at member
  exact ⟨char, (baseOf_sublist _).subset member, visible⟩

/-- The spelling of a plain parameter has no comma, because its base would have kept it. -/
theorem Parameter.IsPlain.comma_not_mem {parameter : Parameter} (plain : parameter.IsPlain) :
    ',' ∉ parameter.spelling := by
  intro comma
  have kept : ',' ∈ baseOf parameter.spelling :=
    mem_baseOf (by decide) (by decide) (by decide) comma
  have based : parameter.base = baseOf parameter.spelling := by
    rw [← plain.spelled]
    rfl
  exact plain.characters.2 (based ▸ kept)

/-- An identifier is not empty and has no colons. -/
theorem IsIdentifier.isPiece {text : Text} (identifier : IsIdentifier text) :
    text ≠ [] ∧ ':' ∉ text :=
  ⟨identifier.named.1, identifier.not_mem rfl (by decide)⟩

/-- The names on the path of a base are its pieces. -/
theorem Parameter.scopeNames_of_joinNames {parameter : Parameter} {names : List Text}
    (nonempty : names ≠ []) (arePieces : ∀ name ∈ names, name ≠ [] ∧ ':' ∉ name)
    (joined : parameter.base = joinNames names) :
    scopePieces parameter.base = names ∧ parameter.scopeNames = names := by
  have pieces : scopePieces parameter.base = names := by
    rw [joined]
    exact scopePieces_joinNames nonempty fun name member => (arePieces name member).2
  refine ⟨pieces, ?_⟩
  -- No name is empty.
  rw [scopeNames, pieces, List.filter_eq_self]
  intro name member
  simpa using (arePieces name member).1

/-- Whether a parameter is plain can be decided: the names are the pieces of its base. -/
instance (parameter : Parameter) : Decidable parameter.IsPlain :=
  decidable_of_iff
    (Parameter.spelled parameter.spelling = parameter ∧
      (parameter.isBuiltin = true ∨
        scopePieces parameter.base ≠ [] ∧
          (∀ name ∈ scopePieces parameter.base, IsIdentifier name) ∧
          parameter.base = joinNames (scopePieces parameter.base)))
    (by
      constructor
      · rintro ⟨spelled, typed⟩
        refine { read := ?_, typed := typed.imp_right fun parts => ⟨_, parts⟩ }
        exact (Parameter.ofSpelling_eq _).trans (congrArg Except.ok spelled)
      · intro plain
        refine ⟨plain.spelled, plain.typed.imp_right ?_⟩
        rintro ⟨names, nonempty, identifiers, joined⟩
        rw [(Parameter.scopeNames_of_joinNames nonempty
          (fun name member => (identifiers name member).isPiece) joined).1]
        exact ⟨nonempty, identifiers, joined⟩)

/-- A plain parameter can be told from its text. -/
theorem Parameter.IsPlain.readable {parameter : Parameter} (plain : parameter.IsPlain) :
    parameter.IsReadable := by
  obtain ⟨⟨char, member, _⟩, _⟩ := plain.characters
  refine
    { based := List.ne_nil_of_mem member
      coded := Parameter.coded_of_ofSpelling plain.read
      named := ?_ }
  intro other piece inside
  rcases plain.typed with builtin | ⟨names, nonempty, identifiers, joined⟩
  · simp [builtin] at other
  · rw [(scopeNames_of_joinNames nonempty
      (fun name member => (identifiers name member).isPiece) joined).1] at inside
    exact (identifiers piece inside).named.2

/-- A base that is no fundamental type names the path that it spells. -/
theorem Parameter.IsPlain.baseType {parameter : Parameter} (plain : parameter.IsPlain) :
    (∀ name ∈ parameter.baseType.names, IsIdentifier name) ∧
      parameter.baseType.spelling =
        match Builtin.ofSpelling? parameter.base with
        | some kind => kind.spelling
        | none => parameter.base := by
  unfold Parameter.baseType
  cases found : Builtin.ofSpelling? parameter.base with
  | some kind => simp [BaseType.names, BaseType.spelling]
  | none =>
    rcases plain.typed with builtin | ⟨names, nonempty, identifiers, joined⟩
    · simp [isBuiltin, found] at builtin
    · obtain ⟨_, path⟩ := scopeNames_of_joinNames nonempty
        (fun name member => (identifiers name member).isPiece) joined
      rw [path]
      by_cases long : 1 < names.length
      · simp only [if_pos long, BaseType.names, BaseType.spelling]
        exact ⟨identifiers, joined.symm⟩
      · simp only [if_neg long, BaseType.names, BaseType.spelling, and_true]
        -- The path has one name, which is the whole base.
        have one : names.length = 1 := by
          have positive := List.length_pos_iff.mpr nonempty
          omega
        obtain ⟨name, single⟩ := List.length_eq_one_iff.mp one
        intro other member
        rw [List.mem_singleton.mp member, joined, single]
        simpa [joinNames] using identifiers name (by simp [single])

end Mangling
