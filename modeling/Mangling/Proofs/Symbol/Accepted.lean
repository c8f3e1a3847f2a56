import Mangling.Proofs.Signature.Rendered
import Mangling.Proofs.Symbol.Assembly

/-! What accepted signatures are mangled into, by the paths and the endings of their tokens. -/

namespace Mangling

/-- The marks that can stand in front of a path in a symbol. -/
def AreOpeningMarks (marks : Text) : Prop :=
  marks = [] ∨ marks = ['N'] ∨ marks = ['N', 'K']

/-- The marks in front of components are opening marks. -/
theorem areOpeningMarks_flatten (isConst : Bool) (components : List Text) :
    AreOpeningMarks (openingMarks isConst components).flatten := by
  rw [openingMarks]
  split
  · cases isConst
    · exact Or.inr (Or.inl rfl)
    · exact Or.inr (Or.inr rfl)
  · exact Or.inl rfl

/-- Opening marks can be told from a digit behind them. -/
theorem AreOpeningMarks.append_inj {marks others : Text} (opening : AreOpeningMarks marks)
    (also : AreOpeningMarks others) {digit next : Char} (isDigit : digit.isDigit = true)
    (alsoDigit : next.isDigit = true) {rest after : Text}
    (same : marks ++ digit :: rest = others ++ next :: after) :
    digit :: rest = next :: after := by
  -- The marks are what stands in front of the first digit.
  have behind : ∀ {marks : Text}, AreOpeningMarks marks → ∀ {digit : Char} {rest : Text},
      digit.isDigit = true →
        (marks ++ digit :: rest).dropWhile (fun char => !char.isDigit) = digit :: rest := by
    intro marks opening digit rest isDigit
    have letters : marks.all (!·.isDigit) = true := by
      rcases opening with rfl | rfl | rfl <;> rfl
    rw [List.dropWhile_append_of_pos (List.all_eq_true.mp letters),
      List.dropWhile_cons_of_neg (by simp [isDigit])]
  rw [← behind opening isDigit, same, behind also alsoDigit]

/-- The tokens of an accepted signature are a path and an ending. -/
theorem exists_path_of_scanSignature {signature : Text} {tokens : List Token}
    (scanned : (scanSignature signature).result = .ok tokens) :
    ∃ path ending, tokens = path ++ ending ∧ IsTokenPath path ∧
      IsTokenEnding (.scope ∈ path) ending := by
  obtain ⟨divided, formed, _, rfl⟩ := exists_signature_of_scanSignature scanned
  obtain ⟨_, path, ending, split, isPath, isEnding⟩ := formed.shaped
  exact ⟨path, ending, split, isPath, isEnding.imp fun either => by simpa using either⟩

/-- No token of a path ends a declaration. -/
theorem IsTokenPath.isFinal_eq_false {path : List Token} (isPath : IsTokenPath path) :
    ∀ token ∈ path, token.isFinal = false := by
  intro token member
  have kind := isPath.kinds token member
  cases token with
  | name | templateArgs | scope | const => rfl
  | params | stop => simp [Token.kind] at kind

/-- In a tail with a parameter list any other list can stand in its place. -/
theorem Tail.IsWellFormed.refill {inScope : Bool} {tail : Tail} (formed : tail.IsWellFormed inScope)
    {content : Text} {items : List Text} (listed : .params content items ∈ tail.tokens) :
    ∃ trailing ending, ')' ∉ trailing ∧ tail.text = '(' :: (content ++ ')' :: trailing) ∧
      ∀ other, ∃ filled : Tail, filled.IsWellFormed inScope ∧
        filled.text = '(' :: (other ++ ')' :: trailing) ∧
        filled.tokens = .params other (commaPieces other) :: ending := by
  cases tail with
  | nothing => simp [tokens] at listed
  | params inside blanks =>
    have areBlanks : AreBlanks blanks := formed
    obtain ⟨rfl, rfl⟩ : content = inside ∧ items = commaPieces inside := by
      simpa [tokens] using listed
    exact ⟨blanks, [.stop], areBlanks.paren_not_mem, rfl,
      fun other => ⟨.params other blanks, formed, rfl, rfl⟩⟩
  | member inside between behind =>
    obtain ⟨inScope, front, back⟩ := formed
    obtain ⟨rfl, rfl⟩ : content = inside ∧ items = commaPieces inside := by
      simpa [tokens] using listed
    have word : ')' ∉ constWord := by decide
    exact ⟨between ++ constWord ++ behind, [.const, .stop],
      by simp [front.paren_not_mem, back.paren_not_mem, word], rfl,
      fun other => ⟨.member other between behind, ⟨inScope, front, back⟩, rfl, rfl⟩⟩

/-- No token of a segment ends a declaration. -/
theorem Segment.isFinal_eq_false (segment : Segment) :
    ∀ token ∈ segment.tokens, token.isFinal = false := by
  intro token member
  rcases List.mem_append.mp member with bracketed | last
  · obtain ⟨part, _, inside⟩ := List.mem_flatMap.mp bracketed
    simp only [List.mem_cons, List.not_mem_nil, or_false] at inside
    rcases inside with rfl | rfl <;> rfl
  · exact (isTokenPath_runTokens segment.last).isFinal_eq_false token last

/-- Where one parameter list is accepted any other one is, behind the same path. -/
theorem scanSignature_refill {head content trailing : Text} {tokens : List Token}
    {items : List Text}
    (accepted : (scanSignature (head ++ '(' :: (content ++ ')' :: trailing))).result = .ok tokens)
    (listed : .params content items ∈ tokens) (free : ')' ∉ trailing) :
    ∃ path ending, (∀ token ∈ path, token.isFinal = false) ∧ ∀ other,
      (scanSignature (head ++ '(' :: (other ++ ')' :: trailing))).result =
        .ok (path ++ .params other (commaPieces other) :: ending) := by
  obtain ⟨divided, formed, written, rfl⟩ := exists_signature_of_scanSignature accepted
  let path := divided.first.tokens ++
    divided.others.flatMap fun segment => .scope :: segment.tokens
  let front := divided.first.text ++
    divided.others.flatMap fun segment => scopeMark ++ segment.text
  have tokens_eq : divided.tokens = path ++ divided.tail.tokens :=
    (List.append_assoc ..).symm
  have text_eq : divided.text = front ++ divided.tail.text := (List.append_assoc ..).symm
  have going : ∀ token ∈ path, token.isFinal = false := by
    intro token member
    rcases List.mem_append.mp member with first | others
    · exact divided.first.isFinal_eq_false token first
    · obtain ⟨segment, _, inside⟩ := List.mem_flatMap.mp others
      rcases List.mem_cons.mp inside with rfl | inside
      · rfl
      · exact segment.isFinal_eq_false token inside
  rw [tokens_eq] at listed
  have offPath : .params content items ∉ path :=
    fun onPath => by simpa [Token.isFinal] using going _ onPath
  have inTail : .params content items ∈ divided.tail.tokens :=
    (List.mem_append.mp listed).resolve_left offPath
  obtain ⟨behind, ending, alsoFree, tailText, fill⟩ := formed.tail.refill inTail
  -- The list that is read is the one that is written there, because it ends at the last parenthesis.
  have same : (front ++ '(' :: content) ++ ')' :: behind =
      (head ++ '(' :: content) ++ ')' :: trailing := by
    rw [text_eq, tailText] at written
    simpa using written
  obtain ⟨opened, rfl⟩ := append_cons_inj_of_last alsoFree free same
  have heads : front = head := List.append_cancel_right opened
  refine ⟨path, ending, going, fun other => ?_⟩
  obtain ⟨filled, filledFormed, filledText, filledTokens⟩ := fill other
  let refilled : Signature := { divided with tail := filled }
  have isFormed : refilled.IsWellFormed false :=
    { segments := formed.segments, tail := filledFormed }
  have refilledText : refilled.text = front ++ filled.text := (List.append_assoc ..).symm
  have refilledTokens : refilled.tokens = path ++ filled.tokens := (List.append_assoc ..).symm
  rw [← heads, ← filledText, ← refilledText, ← filledTokens, ← refilledTokens]
  exact isFormed.scanned

/-- Where one parameter list is accepted, any other one is written behind the same path, over the same
table. -/
theorem mangle_refill {head content trailing : Text} {tokens : List Token} {items : List Text}
    (accepted : (scanSignature (head ++ '(' :: (content ++ ')' :: trailing))).result = .ok tokens)
    (listed : .params content items ∈ tokens) (free : ')' ∉ trailing) :
    ∃ (symbol : Text) (table : Table), ∀ other,
      (mangle (head ++ '(' :: (other ++ ')' :: trailing))).outcome =
        .ok (symbol ++ (table.encodeList other (commaPieces other)).1.flatten) := by
  obtain ⟨path, ending, going, scanned⟩ := scanSignature_refill accepted listed free
  let isConst := path.any (·.kind == .const) || ending.any (·.kind == .const)
  -- The list itself is no member word.
  have member : ∀ other, (path ++ Token.params other (commaPieces other) :: ending).any
      (·.kind == .const) = isConst :=
    fun _ => List.any_append
  refine ⟨symbolMark ++ (pathFragments isConst (pathComponents path)).flatten,
    scopeTable (pathComponents path), fun other => ?_⟩
  rw [mangle_eq_closedSymbol (scanned other), closedSymbol_params _ _ going, member]

/-- What a path adds to a symbol begins with a digit, if it is anything. -/
theorem IsTokenPath.exists_head {path : List Token} (isPath : IsTokenPath path)
    (nonempty : path.flatMap Token.encoding ≠ []) :
    ∃ digit rest, path.flatMap Token.encoding = digit :: rest ∧ digit.isDigit = true := by
  -- The first token that is no separator is a name.
  have named : ∀ (name rest : Text), ∃ digit after,
      sourceName name ++ rest = digit :: after ∧ digit.isDigit = true := by
    intro name rest
    obtain ⟨digit, others, spelled, isDigit⟩ := sourceName_eq_cons name
    exact ⟨digit, others ++ rest, by rw [spelled, List.cons_append], isDigit⟩
  have divided := isPath.isDivided
  clear isPath
  induction divided with
  | nil => simp at nonempty
  | last content => exact named content _
  | scope divided ih => exact ih nonempty
  | nested content divided ih => exact named content _
  | bracketed name content items divided ih => exact named name _

/-- A signature of a path and an ending is left as it is if it has neither scope nor parameters, and
is otherwise mangled into what its path adds, behind opening marks and in front of the rest. -/
theorem mangle_of_path {signature : Text} {path ending : List Token}
    (scanned : (scanSignature signature).result = .ok (path ++ ending)) (isPath : IsTokenPath path)
    (isEnding : IsTokenEnding (.scope ∈ path) ending) :
    ((mangle signature).outcome = .ok signature ∧ .scope ∉ path ∧ ending = [.stop]) ∨
      ∃ marks back, AreOpeningMarks marks ∧ (mangle signature).outcome =
        .ok (symbolMark ++ (marks ++ (path.flatMap Token.encoding ++ back))) := by
  have going := isPath.isFinal_eq_false
  have written : ∀ isConst, (pathFragments isConst (pathComponents path)).flatten =
      (openingMarks isConst (pathComponents path)).flatten ++
        (path.flatMap Token.encoding ++ (closingMarks (pathComponents path)).flatten) := by
    intro isConst
    rw [pathFragments, List.flatten_append, List.flatten_append, flatten_pathComponents,
      List.append_assoc]
  rw [mangle_eq_closedSymbol scanned]
  generalize (path ++ ending).any (·.kind == .const) = isConst
  have listed : ∀ (content : Text) (items : List Text) (tokens : List Token), ∃ marks back,
      AreOpeningMarks marks ∧
        closedSymbol signature isConst (path ++ .params content items :: tokens) =
          .ok (symbolMark ++ (marks ++ (path.flatMap Token.encoding ++ back))) := by
    intro content items tokens
    rw [closedSymbol_params _ _ going, written, List.append_assoc, List.append_assoc,
      List.append_assoc]
    exact ⟨_, _, areOpeningMarks_flatten isConst _, rfl⟩
  cases isEnding with
  | stop =>
    have several := one_lt_length_pathComponents path
    rw [closedSymbol_stop _ _ going]
    by_cases nested : .scope ∈ path
    · rw [if_pos (several.mpr nested), written]
      exact Or.inr ⟨_, _, areOpeningMarks_flatten isConst _, rfl⟩
    · rw [if_neg (nested ∘ several.mp)]
      exact Or.inl ⟨rfl, nested, rfl⟩
  | params content items => exact Or.inr (listed content items [.stop])
  | member _ content items => exact Or.inr (listed content items [.const, .stop])

end Mangling
