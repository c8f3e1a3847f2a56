import Mangling.Proofs.Signature.Runs

/-! The grammar of signatures: a scan accepts exactly its texts, and reads them as they are divided. -/

namespace Mangling

/-- A part of a path between scope separators: runs with brackets behind them, and a last run. -/
structure Segment where
  bracketed : List (Text × Text) := []
  last : Text
  deriving DecidableEq

/-- How a signature goes on behind its path. -/
inductive Tail where
  /-- Not at all. -/
  | nothing
  /-- With a parameter list and blanks behind it. -/
  | params (content blanks : Text)
  /-- With a parameter list, the member word, and blanks around that word. -/
  | member (content between behind : Text)
  deriving DecidableEq

/-- A signature as it is divided: the segments of its path, and its tail. -/
structure Signature where
  first : Segment
  others : List Segment := []
  tail : Tail
  deriving DecidableEq

/-- Only spaces and tabs. -/
def AreBlanks (text : Text) : Prop :=
  ∀ char ∈ text, isSpaceOrTab char = true

/-- A segment as it is written. -/
def Segment.text (segment : Segment) : Text :=
  segment.bracketed.flatMap (fun (run, content) => run ++ '<' :: (content ++ ['>'])) ++
    segment.last

/-- The tokens of a segment. -/
def Segment.tokens (segment : Segment) : List Token :=
  segment.bracketed.flatMap (fun (run, content) =>
      [.name (runName run), .templateArgs content (commaPieces content)]) ++
    -- The last run need not name anything.
    runTokens segment.last

/-- A segment of runs, of which those with brackets name something; brackets end where they can. -/
structure Segment.IsWellFormed (segment : Segment) : Prop where
  bracketed : ∀ part ∈ segment.bracketed, IsRun part.1 ∧ IsNamed part.1 ∧ '>' ∉ part.2
  last : IsRun segment.last

/-- A tail as it is written. -/
def Tail.text : Tail → Text
  | .nothing => []
  | .params content blanks => '(' :: (content ++ ')' :: blanks)
  | .member content between behind => '(' :: (content ++ ')' :: (between ++ constWord ++ behind))

/-- The tokens of a tail, with the one that ends every signature. -/
def Tail.tokens : Tail → List Token
  | .nothing => [.stop]
  | .params content _ => [.params content (commaPieces content), .stop]
  | .member content _ _ => [.params content (commaPieces content), .const, .stop]

/-- Around the member word only blanks may stand, and the word itself only inside a scope. -/
def Tail.IsWellFormed (inScope : Bool) : Tail → Prop
  | .nothing => True
  | .params _ blanks => AreBlanks blanks
  | .member _ between behind => inScope = true ∧ AreBlanks between ∧ AreBlanks behind

/-- A signature as it is written, with a separator between any two segments. -/
def Signature.text (signature : Signature) : Text :=
  signature.first.text ++
    (signature.others.flatMap (fun segment => scopeMark ++ segment.text) ++ signature.tail.text)

/-- The tokens of a signature. -/
def Signature.tokens (signature : Signature) : List Token :=
  signature.first.tokens ++
    (signature.others.flatMap (fun segment => .scope :: segment.tokens) ++ signature.tail.tokens)

/-- A signature, or the rest of one behind a scope, is well formed when all of its parts are. Behind a
scope the member word may stand even if no other scope follows. -/
structure Signature.IsWellFormed (inScope : Bool) (signature : Signature) : Prop where
  segments : ∀ segment ∈ signature.first :: signature.others, segment.IsWellFormed
  tail : signature.tail.IsWellFormed (inScope || !signature.others.isEmpty)

/-- The signature of one run and its tail. -/
def Signature.ended (run : Text) (tail : Tail) : Signature :=
  { first := { last := run }, tail }

/-- The signature in which a run and a scope separator stand in front of another one. -/
def Signature.nested (run : Text) (rest : Signature) : Signature :=
  { first := { last := run }, others := rest.first :: rest.others, tail := rest.tail }

/-- The signature in which a run and its brackets stand in front of another one. -/
def Signature.bracketed (run content : Text) (rest : Signature) : Signature :=
  -- The brackets belong to the segment that goes on behind them.
  { rest with
    first := { rest.first with bracketed := (run, content) :: rest.first.bracketed } }

/-- Every signature is made from its front in one of three ways. -/
@[elab_as_elim]
theorem Signature.frontInduction {motive : Signature → Prop}
    (ended : ∀ run tail, motive (ended run tail))
    (nested : ∀ run rest, motive rest → motive (nested run rest))
    (bracketed : ∀ run content rest, motive rest → motive (bracketed run content rest))
    (signature : Signature) : motive signature := by
  obtain ⟨⟨parts, last⟩, others, tail⟩ := signature
  -- The first segment loses its brackets one by one, and then gives way to the next segment.
  induction others generalizing parts last with
  | nil =>
    induction parts with
    | nil => exact ended last tail
    | cons part parts ih => exact bracketed part.1 part.2 _ ih
  | cons segment others next =>
    induction parts with
    | nil => exact nested last _ (next segment.bracketed segment.last)
    | cons part parts ih => exact bracketed part.1 part.2 _ ih

@[simp] theorem Signature.text_ended (run : Text) (tail : Tail) :
    (ended run tail).text = run ++ tail.text := by
  simp [text, ended, Segment.text]

@[simp] theorem Signature.text_nested (run : Text) (rest : Signature) :
    (nested run rest).text = run ++ ':' :: ':' :: rest.text := by
  simp [text, nested, Segment.text, scopeMark]

@[simp] theorem Signature.text_bracketed (run content : Text) (rest : Signature) :
    (bracketed run content rest).text = run ++ '<' :: (content ++ '>' :: rest.text) := by
  simp [text, bracketed, Segment.text]

@[simp] theorem Signature.tokens_ended (run : Text) (tail : Tail) :
    (ended run tail).tokens = runTokens run ++ tail.tokens := by
  simp [tokens, ended, Segment.tokens]

@[simp] theorem Signature.tokens_nested (run : Text) (rest : Signature) :
    (nested run rest).tokens = runTokens run ++ .scope :: rest.tokens := by
  simp [tokens, nested, Segment.tokens]

@[simp] theorem Signature.tokens_bracketed (run content : Text) (rest : Signature) :
    (bracketed run content rest).tokens =
      .name (runName run) :: .templateArgs content (commaPieces content) :: rest.tokens := by
  simp [tokens, bracketed, Segment.tokens]

theorem Signature.isWellFormed_ended {inScope : Bool} {run : Text} {tail : Tail} :
    (ended run tail).IsWellFormed inScope ↔ IsRun run ∧ tail.IsWellFormed inScope := by
  constructor
  · intro formed
    have tail := formed.tail
    exact ⟨(formed.segments _ (List.mem_cons_self ..)).last, by simpa [ended] using tail⟩
  · rintro ⟨plain, formed⟩
    refine { segments := ?_, tail := by simpa [ended] using formed }
    intro segment member
    rw [List.mem_singleton.mp member]
    exact { bracketed := by simp [ended], last := plain }

/-- Behind a separator the rest is inside a scope. -/
theorem Signature.isWellFormed_nested {inScope : Bool} {run : Text} {rest : Signature} :
    (nested run rest).IsWellFormed inScope ↔ IsRun run ∧ rest.IsWellFormed true := by
  constructor
  · intro formed
    have tail := formed.tail
    exact ⟨(formed.segments _ (List.mem_cons_self ..)).last,
      { segments := fun segment member => formed.segments segment (List.mem_cons_of_mem _ member)
        tail := by simpa [nested] using tail }⟩
  · rintro ⟨plain, formed⟩
    refine { segments := ?_, tail := by simpa [nested] using formed.tail }
    exact List.forall_mem_cons.mpr
      ⟨{ bracketed := by simp [nested], last := plain }, formed.segments⟩

theorem Signature.isWellFormed_bracketed {inScope : Bool} {run content : Text} {rest : Signature} :
    (bracketed run content rest).IsWellFormed inScope ↔
      (IsRun run ∧ IsNamed run ∧ '>' ∉ content) ∧ rest.IsWellFormed inScope := by
  constructor
  · intro formed
    obtain ⟨first, others⟩ := List.forall_mem_cons.mp formed.segments
    obtain ⟨front, parts⟩ := List.forall_mem_cons.mp first.bracketed
    exact ⟨front,
      { segments := List.forall_mem_cons.mpr ⟨{ bracketed := parts, last := first.last }, others⟩
        tail := formed.tail }⟩
  · rintro ⟨front, formed⟩
    obtain ⟨first, others⟩ := List.forall_mem_cons.mp formed.segments
    refine { segments := List.forall_mem_cons.mpr ⟨?_, others⟩, tail := formed.tail }
    exact { bracketed := List.forall_mem_cons.mpr ⟨front, first.bracketed⟩, last := first.last }

/-- Blanks are skipped up to what is not blank. -/
theorem AreBlanks.dropWhile_append {blanks : Text} (areBlanks : AreBlanks blanks) (rest : Text) :
    (blanks ++ rest).dropWhile isSpaceOrTab = rest.dropWhile isSpaceOrTab := by
  rw [List.dropWhile_append_of_pos]
  exact areBlanks

/-- Behind the parameter list blanks may stand. -/
theorem Scanner.scanTrailing_blanks (scanner : Scanner) {blanks : Text}
    (areBlanks : AreBlanks blanks) : scanner.scanTrailing blanks = scanner.done [.stop] [] := by
  have skipped := areBlanks.dropWhile_append []
  rw [List.append_nil, List.dropWhile_nil] at skipped
  rw [scanTrailing_eq, skipped]

/-- Inside a scope the member word may stand behind the parameter list, with blanks around it. -/
theorem Scanner.scanTrailing_member {scanner : Scanner} (inScope : scanner.inScope = true)
    {between behind : Text} (front : AreBlanks between) (back : AreBlanks behind) :
    scanner.scanTrailing (between ++ constWord ++ behind) = scanner.done [.const, .stop] [] := by
  have skipped := back.dropWhile_append []
  rw [List.append_nil, List.dropWhile_nil] at skipped
  -- The word begins with no blank.
  have word : (constWord ++ behind).dropWhile isSpaceOrTab = constWord ++ behind := rfl
  have written : constWord ++ behind = 'c' :: ("onst".toList ++ behind) := rfl
  have found : constWord.isPrefixOf (constWord ++ behind) = true := by simp
  rw [scanTrailing_eq, List.append_assoc, front.dropWhile_append, word]
  rw [written] at found ⊢
  simp only [inScope, found, Bool.and_self, if_true]
  rw [← written, List.drop_left, skipped]

/-- What is accepted behind a parameter list is either blank or the member word between blanks. -/
theorem Scanner.trailing_of_scanTrailing {scanner : Scanner} {trailing : Text} {tokens : List Token}
    (accepted : (scanner.scanTrailing trailing).result = .ok tokens) :
    (AreBlanks trailing ∧ tokens = [.stop]) ∨
      ∃ between behind, trailing = between ++ constWord ++ behind ∧ scanner.inScope = true ∧
        AreBlanks between ∧ AreBlanks behind ∧ tokens = [.const, .stop] := by
  have blank : ∀ text : Text, AreBlanks (text.takeWhile isSpaceOrTab) :=
    fun text => List.all_eq_true.mp List.all_takeWhile
  have whole : ∀ text : Text, text.dropWhile isSpaceOrTab = [] →
      text.takeWhile isSpaceOrTab = text := by
    intro text spent
    simpa [spent] using List.takeWhile_append_dropWhile (p := isSpaceOrTab) (l := text)
  rw [scanTrailing_eq] at accepted
  cases unblank : trailing.dropWhile isSpaceOrTab with
  | nil =>
    simp only [unblank, done, Except.ok.injEq] at accepted
    exact Or.inl ⟨whole trailing unblank ▸ blank trailing, accepted.symm⟩
  | cons char rest =>
    simp only [unblank] at accepted
    split at accepted
    next allowed =>
      simp only [Bool.and_eq_true] at allowed
      obtain ⟨after, written⟩ := List.isPrefixOf_iff_prefix.mp allowed.2
      rw [← written, List.drop_left] at accepted
      cases spent : after.dropWhile isSpaceOrTab with
      | nil =>
        simp only [spent, done, Except.ok.injEq] at accepted
        -- The blanks in front of the word and what begins with the word are all of the text.
        have split := List.takeWhile_append_dropWhile (p := isSpaceOrTab) (l := trailing)
        rw [unblank, ← written, ← List.append_assoc] at split
        exact Or.inr ⟨_, after, split.symm, allowed.1, blank trailing,
          whole after spent ▸ blank after, accepted.symm⟩
      | cons next others => simp [spent, reject, fail] at accepted
    next => simp [reject, fail] at accepted

/-- Blanks are no parentheses, and neither are the letters of the member word. -/
theorem AreBlanks.paren_not_mem {blanks : Text} (areBlanks : AreBlanks blanks) : ')' ∉ blanks :=
  fun member => absurd (areBlanks ')' member) (by decide)

/-- A scan that has these tokens, and that leaves nothing unread. -/
structure Scan.Spends (scan : Scan) (tokens : List Token) : Prop where
  result : scan.result = .ok tokens
  unread : scan.unread = []

/-- A scan that spends its text does so behind other tokens. -/
theorem Scan.Spends.behind {scan : Scan} {back : List Token} (spends : scan.Spends back)
    (front : List Token) (notices : List Notice) :
    (scan.behind front notices).Spends (front ++ back) :=
  { result := result_behind_eq_ok_iff.mpr ⟨back, spends.result, rfl⟩, unread := spends.unread }

/-- A run and a well-formed tail behind it are scanned into their tokens. -/
theorem Scanner.spends_tail {scanner : Scanner} (ready : scanner.name = []) {run : Text}
    (plain : IsRun run) {tail : Tail} (formed : tail.IsWellFormed scanner.inScope) :
    (scanner.scanFrom (run ++ tail.text)).Spends (runTokens run ++ tail.tokens) := by
  cases tail with
  | nothing =>
    rw [Tail.text, List.append_nil, scanFrom_ended ready plain]
    exact { result := rfl, unread := rfl }
  | params content blanks =>
    have areBlanks : AreBlanks blanks := formed
    rw [Tail.text, scanFrom_called ready plain, scanParams_closed _ _ areBlanks.paren_not_mem,
      scanTrailing_blanks _ areBlanks]
    exact { result := rfl, unread := rfl }
  | member content between behind =>
    obtain ⟨inScope, front, back⟩ := formed
    have word : ')' ∉ constWord := by decide
    have free : ')' ∉ between ++ constWord ++ behind := by
      simp [front.paren_not_mem, back.paren_not_mem, word]
    rw [Tail.text, scanFrom_called ready plain, scanParams_closed _ _ free,
      scanTrailing_member inScope front back]
    exact { result := rfl, unread := rfl }

/-- An accepted parameter list, with what follows it, is a well-formed tail. -/
theorem Scanner.exists_tail {scanner : Scanner} {unread : Text} {tokens : List Token}
    (accepted : (scanner.scanParams unread).result = .ok tokens) :
    ∃ tail : Tail, tail.IsWellFormed scanner.inScope ∧ tail.text = '(' :: unread ∧
      tail.tokens = tokens := by
  by_cases closed : ')' ∈ unread
  · obtain ⟨content, trailing, split, free⟩ := exists_last_split closed
    subst split
    rw [scanParams_closed _ _ free, Scan.result_behind_eq_ok_iff] at accepted
    obtain ⟨back, trailed, rfl⟩ := accepted
    rcases trailing_of_scanTrailing trailed with
      ⟨areBlanks, rfl⟩ | ⟨between, behind, rfl, inScope, front, last, rfl⟩
    · exact ⟨.params content trailing, areBlanks, rfl, rfl⟩
    · exact ⟨.member content between behind, ⟨inScope, front, last⟩, rfl, rfl⟩
  · simp [scanParams_open _ closed, reject, fail] at accepted

/-- A well-formed signature is scanned into its tokens. -/
theorem Signature.IsWellFormed.spends {signature : Signature} {scanner : Scanner}
    (formed : signature.IsWellFormed scanner.inScope) (ready : scanner.name = []) :
    (scanner.scanFrom signature.text).Spends signature.tokens := by
  induction signature using Signature.frontInduction generalizing scanner with
  | ended run tail =>
    obtain ⟨plain, formed⟩ := isWellFormed_ended.mp formed
    rw [text_ended, tokens_ended]
    exact Scanner.spends_tail ready plain formed
  | nested run rest ih =>
    obtain ⟨plain, formed⟩ := isWellFormed_nested.mp formed
    have behind : (scanner.entered.scanFrom rest.text).Spends rest.tokens := ih formed ready
    rw [text_nested, tokens_nested, Scanner.scanFrom_nested ready plain,
      List.append_cons _ _ rest.tokens]
    exact behind.behind _ _
  | bracketed run content rest ih =>
    obtain ⟨⟨plain, named, free⟩, formed⟩ := isWellFormed_bracketed.mp formed
    rw [text_bracketed, tokens_bracketed, Scanner.scanFrom_bracketed ready plain named free]
    exact (ih formed ready).behind _ _

/-- What a scan accepts is a well-formed signature, and the tokens are those of the signature. -/
theorem exists_signature {text : Text} {scanner : Scanner} (ready : scanner.name = [])
    {tokens : List Token} (accepted : (scanner.scanFrom text).result = .ok tokens) :
    ∃ signature : Signature, signature.IsWellFormed scanner.inScope ∧ signature.text = text ∧
      signature.tokens = tokens := by
  induction text using scanInduction generalizing scanner tokens with
  | ended run plain =>
    rw [Scanner.scanFrom_ended ready plain, Scan.result_behind_eq_ok_iff] at accepted
    obtain ⟨back, ended, rfl⟩ := accepted
    simp only [Scanner.done, Except.ok.injEq] at ended
    exact ⟨.ended run .nothing, Signature.isWellFormed_ended.mpr ⟨plain, trivial⟩,
      by simp [Tail.text], by simp [Tail.tokens, ended]⟩
  | nested run rest plain ih =>
    rw [Scanner.scanFrom_nested ready plain, Scan.result_behind_eq_ok_iff] at accepted
    obtain ⟨back, behind, rfl⟩ := accepted
    obtain ⟨signature, formed, rfl, rfl⟩ := @ih scanner.entered ready back behind
    exact ⟨.nested run signature, Signature.isWellFormed_nested.mpr ⟨plain, formed⟩,
      by simp, by simp⟩
  | malformed run rest plain lone =>
    simp [Scanner.scanFrom_malformed ready plain lone, Scan.behind, Scanner.reject, Scanner.fail,
      Except.map] at accepted
  | bracketed run content rest plain named free ih =>
    rw [Scanner.scanFrom_bracketed ready plain named free, Scan.result_behind_eq_ok_iff] at accepted
    obtain ⟨back, behind, rfl⟩ := accepted
    obtain ⟨signature, formed, rfl, rfl⟩ := ih ready behind
    exact ⟨.bracketed run content signature,
      Signature.isWellFormed_bracketed.mpr ⟨⟨plain, named, free⟩, formed⟩, by simp, by simp⟩
  | unterminated run rest plain named free =>
    simp [Scanner.scanFrom_unterminated ready plain named free, Scan.behind, Scanner.reject,
      Scanner.fail, Except.map] at accepted
  | unnamed run rest plain unnamed =>
    simp [Scanner.scanFrom_unnamed ready plain unnamed, Scan.behind, Scanner.reject, Scanner.fail,
      Except.map] at accepted
  | called run rest plain =>
    rw [Scanner.scanFrom_called ready plain, Scan.result_behind_eq_ok_iff] at accepted
    obtain ⟨back, listed, rfl⟩ := accepted
    obtain ⟨tail, formed, written, rfl⟩ := Scanner.exists_tail listed
    exact ⟨.ended run tail, Signature.isWellFormed_ended.mpr ⟨plain, formed⟩,
      by simp [written], by simp⟩

/-- The tokens of a signature are those of its scan, because a scan that succeeds has spent it. -/
theorem result_scanSignature (signature : Text) :
    (scanSignature signature).result =
      (Scanner.scanFrom { symbol := signature } signature).result := by
  rw [scanSignature, Scanner.scan]
  simp only
  split
  · rfl
  next tokens scanned =>
    obtain ⟨divided, formed, written, _⟩ := exists_signature rfl scanned
    have spends := @Signature.IsWellFormed.spends divided { symbol := signature } formed rfl
    rw [written] at spends
    rw [spends.unread]
    rfl

/-- The text of a well-formed signature is scanned into its tokens. -/
theorem Signature.IsWellFormed.scanned {signature : Signature}
    (formed : signature.IsWellFormed false) :
    (scanSignature signature.text).result = .ok signature.tokens := by
  rw [result_scanSignature]
  exact (formed.spends rfl).result

/-- An accepted text is that of a well-formed signature, and so are its tokens. -/
theorem exists_signature_of_scanSignature {text : Text} {tokens : List Token}
    (accepted : (scanSignature text).result = .ok tokens) :
    ∃ signature : Signature, signature.IsWellFormed false ∧ signature.text = text ∧
      signature.tokens = tokens := by
  rw [result_scanSignature] at accepted
  exact exists_signature rfl accepted

/-- A scan accepts exactly the texts of well-formed signatures, and its tokens are those into which
the text is divided. -/
theorem scanSignature_eq_ok_iff (text : Text) (tokens : List Token) :
    (scanSignature text).result = .ok tokens ↔
      ∃ signature : Signature, signature.IsWellFormed false ∧ signature.text = text ∧
        signature.tokens = tokens := by
  constructor
  · exact exists_signature_of_scanSignature
  · rintro ⟨signature, formed, rfl, rfl⟩
    exact formed.scanned

end Mangling
