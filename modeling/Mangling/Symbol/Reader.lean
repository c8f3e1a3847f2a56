import Mangling.Symbol.TypeTree

/-! Reading a symbol back: its name, its types, and the candidates that its back references name. -/

namespace Mangling

/-- Takes characters until their widths make up a size; a character across the border is refused. -/
def takeWidth (width : Char → Nat) : Nat → Text → Option (Text × Text)
  | 0, text => some ([], text)
  | _ + 1, [] => none
  | size + 1, char :: rest =>
    -- Every character has some width, and the size left shrinks by it.
    if width char ≤ size + 1 then
      (takeWidth width (size + 1 - width char) rest).map fun (taken, rest) => (char :: taken, rest)
    else none

/-- A source name is a positive decimal length and a name of that width. -/
def readSource (width : Char → Nat) (text : Text) : Option (Text × Text) :=
  -- Without digits the length is zero, which no name has.
  let size := readDecimal (text.takeWhile Char.isDigit)
  if size = 0 then none else takeWidth width size (text.dropWhile Char.isDigit)

/-- What is left behind a taken name is no longer than before it. -/
theorem takeWidth_length_le {width : Char → Nat} {size : Nat} {text taken rest : Text}
    (read : takeWidth width size text = some (taken, rest)) : rest.length ≤ text.length := by
  -- What is taken comes from the front.
  induction text generalizing size taken rest with
  | nil =>
    cases size with
    | zero => simp_all [takeWidth]
    | succ size => simp [takeWidth] at read
  | cons char others ih =>
    cases size with
    | zero =>
      simp only [takeWidth, Option.some.injEq, Prod.mk.injEq] at read
      simp [← read.2]
    | succ size =>
      rw [takeWidth] at read
      split at read
      · obtain ⟨⟨inner, after⟩, found, same⟩ := Option.map_eq_some_iff.mp read
        have shorter := ih found
        simp only [Prod.mk.injEq] at same
        rw [← same.2, List.length_cons]
        omega
      · simp at read

/-- A source name spends at least the digit in front. -/
theorem readSource_length_lt {width : Char → Nat} {text name rest : Text}
    (read : readSource width text = some (name, rest)) : rest.length < text.length := by
  rw [readSource] at read
  split at read
  · simp at read
  next positive =>
    have shorter := takeWidth_length_le read
    -- Without a digit the length would be zero.
    have digits : 0 < (text.takeWhile Char.isDigit).length := by
      cases digits : text.takeWhile Char.isDigit with
      | nil => simp [digits, readDecimal] at positive
      | cons digit others => simp
    have whole := congrArg List.length
      (List.takeWhile_append_dropWhile (p := Char.isDigit) (l := text))
    rw [List.length_append] at whole
    omega

/-- The source names up to the end of a nested name, whose mark is spent. -/
def readSources (width : Char → Nat) (text : Text) : Option (List Text × Text) :=
  -- A name begins with a digit, so the closing mark is never taken for one.
  if text.head? = some 'E' then some ([], text.drop 1)
  else
    match _ : readSource width text with
    | none => none
    | some (name, rest) =>
      (readSources width rest).map fun (names, rest) => (name :: names, rest)
termination_by text.length
decreasing_by
  rename_i read
  exact readSource_length_lt read

/-- The value of a digit of a back reference, which counts up to nine and then on through the
alphabet. -/
def referenceDigit (char : Char) : Option Nat :=
  -- Small letters are no digits.
  if char.isDigit then some (char.toNat - '0'.toNat)
  else if char.isUpper then some (char.toNat - 'A'.toNat + 10)
  else none

/-- The index that a back reference names, behind its first letter. -/
def readReference : Text → Option (Nat × Text)
  -- The first candidate has no digit, and the digit of every other is one less than its index.
  | '_' :: rest => some (0, rest)
  | digit :: '_' :: rest => (referenceDigit digit).map fun value => (value + 1, rest)
  | _ => none

/-- The candidate that a back reference names. -/
def readCandidate (candidates : List TypeTree) (text : Text) : Option (TypeTree × Text) :=
  match readReference text with
  -- A reference to a candidate that is not there yet is refused.
  | some (index, rest) => candidates[index]?.map fun tree => (tree, rest)
  | none => none

/-- The members named behind the head of a nested name: the last of them is the type, and each is a
candidate. -/
def readMembers (width : Char → Nat) (candidates : List TypeTree) (head : TypeTree) (text : Text) :
    Option (TypeTree × List TypeTree × Text) :=
  match readSources width text with
  | none => none
  | some (names, rest) =>
    -- A head without members is no nested name.
    let members := head.descend names
    members.getLast?.map fun tree => (tree, candidates ++ members, rest)

/-- A nested name used as a type: its head is a back reference, or a name that is a candidate. -/
def readNested (width : Char → Nat) (candidates : List TypeTree) (text : Text) :
    Option (TypeTree × List TypeTree × Text) :=
  match text with
  | 'S' :: rest =>
    match readCandidate candidates rest with
    | none => none
    | some (head, rest) => readMembers width candidates head rest
  | _ =>
    match readSource width text with
    | none => none
    | some (name, rest) => readMembers width (candidates ++ [.source name]) (.source name) rest

/-- The fundamental type whose code comes next. -/
def readBuiltin (text : Text) : Option (Builtin × Text) :=
  -- No code begins another one, so at most one fits.
  (Builtin.all.find? (·.code.isPrefixOf text)).map fun builtin =>
    (builtin, text.drop builtin.code.length)

/-- A type without qualifiers in front: a nested name, a back reference, a class or a fundamental
type. -/
def readBase (width : Char → Nat) (candidates : List TypeTree) (text : Text) :
    Option (TypeTree × List TypeTree × Text) :=
  match text with
  | 'N' :: rest => readNested width candidates rest
  -- A back reference is complete already and becomes no candidate.
  | 'S' :: rest =>
    (readCandidate candidates rest).map fun (tree, rest) => (tree, candidates, rest)
  | _ =>
    match readBuiltin text with
    | some (builtin, rest) => some (.builtin builtin, candidates, rest)
    | none =>
      (readSource width text).map fun (name, rest) =>
        (.source name, candidates ++ [.source name], rest)

/-- A type, with the candidates after it; pointers and constness become candidates once the type
they wrap is complete. -/
def readType (width : Char → Nat) (candidates : List TypeTree) :
    Text → Option (TypeTree × List TypeTree × Text)
  -- The wrapped type becomes a candidate before the type that wraps it.
  | 'P' :: rest =>
    (readType width candidates rest).map fun (target, candidates, rest) =>
      (.pointer target, candidates ++ [.pointer target], rest)
  | 'K' :: rest =>
    (readType width candidates rest).map fun (target, candidates, rest) =>
      (.const target, candidates ++ [.const target], rest)
  | text => readBase width candidates text

/-- Source names spend at least the closing mark. -/
theorem readSources_length_lt {width : Char → Nat} {text rest : Text} {names : List Text}
    (read : readSources width text = some (names, rest)) : rest.length < text.length := by
  fun_induction readSources width text generalizing names rest with
  | case1 text close =>
    simp only [Option.some.injEq, Prod.mk.injEq] at read
    rw [← read.2, List.length_drop]
    have nonempty : 0 < text.length := by
      cases text with
      | nil => simp at close
      | cons char others => simp
    omega
  | case2 => simp at read
  | case3 text _ name after found ih =>
    obtain ⟨⟨others, last⟩, more, same⟩ := Option.map_eq_some_iff.mp read
    simp only [Prod.mk.injEq] at same
    have first := readSource_length_lt found
    have second := ih more
    rw [← same.2]
    omega

/-- A back reference spends at least one character. -/
theorem readCandidate_length_lt {candidates : List TypeTree} {text rest : Text} {tree : TypeTree}
    (read : readCandidate candidates text = some (tree, rest)) : rest.length < text.length := by
  rw [readCandidate] at read
  split at read
  next index after found =>
    simp only [Option.map_eq_some_iff, Prod.mk.injEq] at read
    obtain ⟨_, _, _, same⟩ := read
    rw [← same]
    rw [readReference.eq_def] at found
    split at found
    · simp only [Option.some.injEq, Prod.mk.injEq] at found
      simp [← found.2]
    · simp only [Option.map_eq_some_iff, Prod.mk.injEq] at found
      obtain ⟨_, _, _, last⟩ := found
      simp only [← last, List.length_cons]
      omega
    · simp at found
  · simp at read

/-- The members of a nested name spend at least the closing mark. -/
theorem readMembers_length_lt {width : Char → Nat} {candidates known : List TypeTree}
    {head tree : TypeTree} {text rest : Text}
    (read : readMembers width candidates head text = some (tree, known, rest)) :
    rest.length < text.length := by
  rw [readMembers] at read
  split at read
  · simp at read
  next names after found =>
    simp only [Option.map_eq_some_iff, Prod.mk.injEq] at read
    obtain ⟨_, _, _, _, same⟩ := read
    rw [← same]
    exact readSources_length_lt found

/-- A nested name spends at least one character behind its opening mark. -/
theorem readNested_length_lt {width : Char → Nat} {candidates known : List TypeTree}
    {tree : TypeTree} {text rest : Text}
    (read : readNested width candidates text = some (tree, known, rest)) :
    rest.length < text.length := by
  rw [readNested.eq_def] at read
  split at read
  · split at read
    · simp at read
    next head after found =>
      have first := readCandidate_length_lt found
      have second := readMembers_length_lt read
      rw [List.length_cons]
      omega
  · split at read
    · simp at read
    next name after found =>
      have first := readSource_length_lt found
      have second := readMembers_length_lt read
      omega

/-- A type code spends at least one character. -/
theorem readBuiltin_length_lt {text rest : Text} {builtin : Builtin}
    (read : readBuiltin text = some (builtin, rest)) : rest.length < text.length := by
  simp only [readBuiltin, Option.map_eq_some_iff, Prod.mk.injEq] at read
  obtain ⟨found, search, same, last⟩ := read
  have front : found.code.isPrefixOf text = true := by simpa using List.find?_some search
  have bound := (List.isPrefixOf_iff_prefix.mp front).length_le
  have positive : 0 < found.code.length := by cases found <;> decide
  rw [← last, List.length_drop]
  omega

/-- A type without qualifiers spends at least one character. -/
theorem readBase_length_lt {width : Char → Nat} {candidates known : List TypeTree}
    {tree : TypeTree} {text rest : Text}
    (read : readBase width candidates text = some (tree, known, rest)) :
    rest.length < text.length := by
  rw [readBase.eq_def] at read
  split at read
  · have shorter := readNested_length_lt read
    rw [List.length_cons]
    omega
  · simp only [Option.map_eq_some_iff, Prod.mk.injEq] at read
    obtain ⟨⟨_, after⟩, found, _, _, same⟩ := read
    have shorter := readCandidate_length_lt found
    dsimp only at same
    rw [← same, List.length_cons]
    omega
  · split at read
    next builtin after found =>
      simp only [Option.some.injEq, Prod.mk.injEq] at read
      rw [← read.2.2]
      exact readBuiltin_length_lt found
    next =>
      simp only [Option.map_eq_some_iff, Prod.mk.injEq] at read
      obtain ⟨⟨_, after⟩, found, _, _, same⟩ := read
      rw [← same]
      exact readSource_length_lt found

/-- A type spends at least one character. -/
theorem readType_length_lt {width : Char → Nat} {candidates known : List TypeTree}
    {tree : TypeTree} {text rest : Text}
    (read : readType width candidates text = some (tree, known, rest)) :
    rest.length < text.length := by
  fun_induction readType width candidates text generalizing known tree rest with
  | case1 text ih =>
    simp only [Option.map_eq_some_iff, Prod.mk.injEq] at read
    obtain ⟨⟨_, _, after⟩, found, _, _, same⟩ := read
    have shorter := ih found
    dsimp only at same
    rw [← same, List.length_cons]
    omega
  | case2 text ih =>
    simp only [Option.map_eq_some_iff, Prod.mk.injEq] at read
    obtain ⟨⟨_, _, after⟩, found, _, _, same⟩ := read
    have shorter := ih found
    dsimp only at same
    rw [← same, List.length_cons]
    omega
  | case3 text => exact readBase_length_lt read

/-- The types up to the end of a text, with the candidates after them. -/
def readTypes (width : Char → Nat) (candidates : List TypeTree) (text : Text) :
    Option (List TypeTree × List TypeTree) :=
  -- Nothing may be left behind the last type.
  if text.isEmpty then some ([], candidates)
  else
    match _ : readType width candidates text with
    | none => none
    | some (tree, candidates, rest) =>
      (readTypes width candidates rest).map fun (trees, candidates) => (tree :: trees, candidates)
termination_by text.length
decreasing_by
  rename_i read
  exact readType_length_lt read

/-- A declaration as its symbol tells it: the names on its path, whether it is a member that does
not change its object, and the types of its parameters. -/
structure Declaration where
  names : List Text
  isConst : Bool := false
  types : List TypeTree := []
  deriving DecidableEq

/-- The name of a declaration: a source name, or a nested name of at least one. -/
def readName (width : Char → Nat) (text : Text) : Option (Declaration × Text) :=
  match text with
  | 'N' :: rest =>
    -- The mark of a constant member stands in front of the names.
    let isConst := rest.head? == some 'K'
    match readSources width (if isConst then rest.drop 1 else rest) with
    | some (name :: names, rest) => some ({ names := name :: names, isConst }, rest)
    | _ => none
  | _ => (readSource width text).map fun (name, rest) => ({ names := [name] }, rest)

/-- A symbol is its mark, a name and types; the scopes of the name are the first candidates. -/
def readSymbol (width : Char → Nat) (symbol : Text) : Option Declaration :=
  match symbol with
  | '_' :: 'Z' :: rest =>
    match readName width rest with
    | none => none
    | some (declaration, rest) =>
      -- The declaration itself is no candidate, only the scopes around it are.
      (readTypes width (TypeTree.scopes declaration.names.dropLast) rest).map fun (types, _) =>
        { declaration with types }
  | _ => none

end Mangling
