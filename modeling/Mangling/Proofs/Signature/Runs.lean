import Mangling.Proofs.Text.Joined
import Mangling.Signature.Scan

/-! Runs of a signature between its marks, and what a scan makes of a run and the mark behind it. -/

namespace Mangling

/-- A run has none of the three marks that end a name. -/
def IsRun (text : Text) : Prop :=
  ∀ char ∈ text, char ≠ ':' ∧ char ≠ '<' ∧ char ≠ '('

/-- A run names something when some character of it can stand in a name. -/
def IsNamed (run : Text) : Prop :=
  ∃ char ∈ run, isIdentifierChar char = true

/-- Whether a run keeps the character at a place for its name. -/
def keepsAt (run : Text) (char : Char) (place : Nat) : Bool :=
  -- A space is kept behind what has begun a name, if the very next character goes on with it.
  isIdentifierChar char ||
    (char == ' ' && (run.take place).any isIdentifierChar &&
      run[place + 1]?.any isIdentifierChar)

/-- The name of a run: the characters that it keeps. -/
def runName (run : Text) : Text :=
  (run.zipIdx.filter fun (char, place) => keepsAt run char place).map Prod.fst

/-- The characters that the rest of a run adds to its name, which has begun or not. -/
def keptFrom (begun : Bool) : Text → Text
  | [] => []
  | char :: rest =>
    if isIdentifierChar char then char :: keptFrom true rest
    -- A kept space leaves the name as begun as it was.
    else if char == ' ' && begun && rest.head?.any isIdentifierChar then ' ' :: keptFrom begun rest
    else keptFrom begun rest

/-- The name of a run as a token, if it has one. -/
def runTokens (run : Text) : List Token :=
  if (runName run).isEmpty then [] else [.name (runName run)]

/-- The notices that a run is worth, one for each of its spaces. -/
def spaceNotices (symbol run : Text) : List Notice :=
  List.replicate (run.count ' ') (.whitespace symbol)

/-- What is kept from a place on depends on what stands in front only through whether it has begun a
name. -/
theorem filter_keepsAt (before after : Text) :
    ((after.zipIdx before.length).filter fun (char, place) =>
        keepsAt (before ++ after) char place).map Prod.fst =
      keptFrom (before.any isIdentifierChar) after := by
  -- The character in front goes over to what has been read.
  induction after generalizing before with
  | nil => rfl
  | cons char rest ih =>
    have behind := ih (before ++ [char])
    have next : (before ++ char :: rest)[before.length + 1]? = rest.head? := by
      rw [List.getElem?_append_right (by omega), List.head?_eq_getElem?]
      simp
    have whole : before ++ [char] ++ rest = before ++ char :: rest := by simp
    rw [whole, List.length_append, List.length_singleton] at behind
    have decided : keepsAt (before ++ char :: rest) char before.length =
        (isIdentifierChar char ||
          (char == ' ' && before.any isIdentifierChar && rest.head?.any isIdentifierChar)) := by
      rw [keepsAt, next, List.take_left' rfl]
    have begun : (before ++ [char]).any isIdentifierChar =
        (before.any isIdentifierChar || isIdentifierChar char) := by simp
    rw [begun] at behind
    rw [List.zipIdx_cons, List.filter_cons]
    simp only [decided, keptFrom]
    by_cases joins : isIdentifierChar char = true
    · simp only [joins, Bool.true_or, Bool.or_true, if_true, List.map_cons] at behind ⊢
      rw [behind]
    · rw [Bool.not_eq_true] at joins
      simp only [joins, Bool.false_or, Bool.or_false, Bool.false_eq_true, if_false] at behind ⊢
      split
      next kept =>
        have space : char = ' ' := by
          simp only [Bool.and_eq_true, beq_iff_eq] at kept
          exact kept.1.1
        rw [List.map_cons, behind, space]
      next => exact behind

/-- The name of a run can be collected from left to right. -/
theorem runName_eq (run : Text) : runName run = keptFrom false run :=
  filter_keepsAt [] run

/-- A run has an empty name exactly when it names nothing. -/
theorem runName_eq_nil_iff {run : Text} : runName run = [] ↔ ¬IsNamed run := by
  rw [runName_eq]
  induction run with
  | nil => simp [keptFrom, IsNamed]
  | cons char rest ih =>
    rw [keptFrom]
    by_cases joins : isIdentifierChar char = true
    · simp [joins, IsNamed]
    · -- Before the name has begun nothing else is kept.
      simpa [joins, IsNamed] using ih

/-- The tokens of a run that names something are its name. -/
theorem runTokens_of_isNamed {run : Text} (named : IsNamed run) :
    runTokens run = [.name (runName run)] := by
  have spelled : (runName run).isEmpty = false := by
    rw [Bool.eq_false_iff, Ne, List.isEmpty_iff, runName_eq_nil_iff]
    exact not_not_intro named
  simp [runTokens, spelled]

/-- A text begins with a run, behind which it ends or one of the marks stands. -/
theorem exists_run (text : Text) :
    ∃ run rest, IsRun run ∧ text = run ++ rest ∧
      (rest = [] ∨ ∃ after, rest = ':' :: after ∨ rest = '<' :: after ∨ rest = '(' :: after) := by
  induction text with
  | nil => exact ⟨[], [], by simp [IsRun], rfl, Or.inl rfl⟩
  | cons char others ih =>
    by_cases plain : char ≠ ':' ∧ char ≠ '<' ∧ char ≠ '('
    · obtain ⟨run, rest, isRun, split, marked⟩ := ih
      exact ⟨char :: run, rest, List.forall_mem_cons.mpr ⟨plain, isRun⟩, by simp [split], marked⟩
    · -- A mark ends the run before it has begun.
      have mark : char = ':' ∨ char = '<' ∨ char = '(' := by
        simpa only [Ne, ← not_or, Decidable.not_not] using plain
      exact ⟨[], char :: others, by simp [IsRun], rfl, Or.inr ⟨others, by simpa using mark⟩⟩

/-- What holds of a text by the run in front and the mark behind it, in each of the ways in which a
scan can go on or come to its end there, holds of every text. -/
@[elab_as_elim]
theorem scanInduction {motive : Text → Prop}
    (ended : ∀ run, IsRun run → motive run)
    (nested : ∀ run rest, IsRun run → motive rest → motive (run ++ ':' :: ':' :: rest))
    (malformed : ∀ run rest, IsRun run → rest.head? ≠ some ':' → motive (run ++ ':' :: rest))
    (bracketed : ∀ run content rest, IsRun run → IsNamed run → '>' ∉ content → motive rest →
      motive (run ++ '<' :: (content ++ '>' :: rest)))
    (unterminated : ∀ run rest, IsRun run → IsNamed run → '>' ∉ rest →
      motive (run ++ '<' :: rest))
    (unnamed : ∀ run rest, IsRun run → ¬IsNamed run → motive (run ++ '<' :: rest))
    (called : ∀ run rest, IsRun run → motive (run ++ '(' :: rest)) (text : Text) :
    motive text := by
  -- Whatever stands behind a mark is shorter than the text.
  induction length : text.length using Nat.strongRecOn generalizing text with
  | ind size ih =>
    obtain ⟨run, rest, isRun, rfl, marked⟩ := exists_run text
    rcases marked with rfl | ⟨after, rfl | rfl | rfl⟩
    · simpa using ended run isRun
    · cases after with
      | nil => exact malformed run [] isRun (by simp)
      | cons next after =>
        by_cases colon : next = ':'
        · subst colon
          refine nested run after isRun (ih after.length ?_ after rfl)
          simp only [← length, List.length_append, List.length_cons]
          omega
        · exact malformed run (next :: after) isRun (by simpa using colon)
    · by_cases named : IsNamed run
      · by_cases closed : '>' ∈ after
        · obtain ⟨content, behind, split, free⟩ := List.eq_append_cons_of_mem closed
          subst split
          refine bracketed run content behind isRun named free (ih behind.length ?_ behind rfl)
          simp only [← length, List.length_append, List.length_cons]
          omega
        · exact unterminated run after isRun named closed
      · exact unnamed run after isRun named
    · exact called run after isRun

/-- A scan behind nothing is the scan itself. -/
@[simp] theorem Scan.behind_nil (scan : Scan) : scan.behind [] [] = scan := by
  cases scan with
  | mk result scanner notices unread => cases result <;> rfl

/-- A scan that comes behind one thing and then another comes behind both. -/
theorem Scan.behind_behind (scan : Scan) (outer inner : List Token)
    (outerNotices innerNotices : List Notice) :
    (scan.behind inner innerNotices).behind outer outerNotices =
      scan.behind (outer ++ inner) (outerNotices ++ innerNotices) := by
  cases scan with
  | mk result scanner notices unread => cases result <;> simp [behind, Except.map]

/-- A scan behind some tokens has tokens when it has some by itself. -/
theorem Scan.result_behind_eq_ok_iff {scan : Scan} {front tokens : List Token}
    {notices : List Notice} :
    (scan.behind front notices).result = .ok tokens ↔
      ∃ back, scan.result = .ok back ∧ tokens = front ++ back := by
  cases result : scan.result <;> simp [behind, result, Except.map, eq_comm]

/-- The scanner once a run has been read. -/
def Scanner.behindRun (scanner : Scanner) (run : Text) : Scanner :=
  { scanner with name := scanner.name ++ keptFrom (!scanner.name.isEmpty) run }

/-- A run is read character by character, up to where no identifier character follows it. -/
theorem Scanner.scanFrom_run (scanner : Scanner) {run rest : Text} (plain : IsRun run)
    (stops : rest.head?.any isIdentifierChar = false) :
    scanner.scanFrom (run ++ rest) =
      ((scanner.behindRun run).scanFrom rest).behind [] (spaceNotices scanner.symbol run) := by
  induction run generalizing scanner with
  | nil => simp [behindRun, keptFrom, spaceNotices]
  | cons char others ih =>
    obtain ⟨⟨colon, angle, paren⟩, later⟩ := List.forall_mem_cons.mp plain
    have next : (others ++ rest).head?.any isIdentifierChar =
        others.head?.any isIdentifierChar := by
      cases others with
      | nil => simpa using stops
      | cons other others => rfl
    have grown : ∀ last : Char, (scanner.name ++ [last]).isEmpty = false := by simp
    rw [List.cons_append, scanFrom.eq_def]
    by_cases space : char = ' '
    · subst space
      have separate : isIdentifierChar ' ' = false := by decide
      have counted : spaceNotices scanner.symbol (' ' :: others) =
          .whitespace scanner.symbol :: spaceNotices scanner.symbol others := by
        simp [spaceNotices, List.replicate_succ]
      -- The scanner decides about the space by the character that comes next.
      have spaced : (scanner.spaced (others ++ rest)).behindRun others =
          scanner.behindRun (' ' :: others) := by
        rw [Scanner.spaced, next, behindRun, behindRun, keptFrom]
        cases begun : scanner.name.isEmpty <;> cases follows : others.head?.any isIdentifierChar <;>
          simp [begun, separate, grown]
      have symbol : (scanner.spaced (others ++ rest)).symbol = scanner.symbol := by
        unfold Scanner.spaced
        split <;> rfl
      simp only [if_true]
      rw [ih _ later, spaced, symbol, Scan.behind_behind, counted]
      rfl
    · have counted : spaceNotices scanner.symbol (char :: others) =
          spaceNotices scanner.symbol others := by
        simp [spaceNotices, space]
      simp only [space, colon, angle, paren, if_false, counted]
      split
      next joins =>
        have lengthened : (scanner.lengthened char).behindRun others =
            scanner.behindRun (char :: others) := by
          simp [Scanner.lengthened, behindRun, keptFrom, joins, grown]
        rw [ih _ later, lengthened]
        rfl
      next skipped =>
        have same : scanner.behindRun others = scanner.behindRun (char :: others) := by
          simp [behindRun, keptFrom, skipped, space]
        rw [ih _ later, same]

/-- What is pending behind a run is its name. -/
theorem Scanner.pending_behindRun {scanner : Scanner} (ready : scanner.name = []) (run : Text) :
    (scanner.behindRun run).pending = runTokens run := by
  simp [behindRun, pending, runTokens, runName_eq, ready]

/-- Once the name of a run has become a token, the scanner is as it was in front of the run. -/
theorem Scanner.flushed_behindRun {scanner : Scanner} (ready : scanner.name = []) (run : Text) :
    (scanner.behindRun run).flushed = scanner := by
  simp [behindRun, flushed, ← ready]

/-- A signature may end behind any run. -/
theorem Scanner.scanFrom_ended {scanner : Scanner} (ready : scanner.name = []) {run : Text}
    (plain : IsRun run) :
    scanner.scanFrom run =
      (scanner.done [.stop] []).behind (runTokens run) (spaceNotices scanner.symbol run) := by
  have read := @scanFrom_run scanner run [] plain rfl
  rw [List.append_nil] at read
  rw [read, scanFrom.eq_def]
  simp [pending_behindRun ready, flushed_behindRun ready, done, Scan.behind, Except.map]

/-- Two colons finish the name of the run in front of them and enter a scope. -/
theorem Scanner.scanFrom_nested {scanner : Scanner} (ready : scanner.name = []) {run : Text}
    (plain : IsRun run) (rest : Text) :
    scanner.scanFrom (run ++ ':' :: ':' :: rest) =
      (scanner.entered.scanFrom rest).behind (runTokens run ++ [.scope])
        (spaceNotices scanner.symbol run) := by
  rw [scanner.scanFrom_run plain rfl, scanFrom.eq_def]
  simp [pending_behindRun ready, flushed_behindRun ready, Scan.behind_behind]

/-- A lone colon is rejected, with what stands in the place of the second one. -/
theorem Scanner.scanFrom_malformed {scanner : Scanner} (ready : scanner.name = []) {run rest : Text}
    (plain : IsRun run) (lone : rest.head? ≠ some ':') :
    scanner.scanFrom (run ++ ':' :: rest) =
      (scanner.reject .malformedScope rest.head?.toList rest).behind []
        (spaceNotices scanner.symbol run) := by
  rw [scanner.scanFrom_run plain rfl, scanFrom.eq_def]
  cases rest with
  | nil => simp [flushed_behindRun ready]
  | cons next after =>
    have other : next ≠ ':' := by simpa using lone
    simp [flushed_behindRun ready, other]

/-- An angle bracket behind a run that names nothing is rejected. -/
theorem Scanner.scanFrom_unnamed {scanner : Scanner} (ready : scanner.name = []) {run : Text}
    (plain : IsRun run) (unnamed : ¬IsNamed run) (rest : Text) :
    scanner.scanFrom (run ++ '<' :: rest) =
      (scanner.reject .missingTemplateName ['<'] ('<' :: rest)).behind []
        (spaceNotices scanner.symbol run) := by
  have empty : scanner.behindRun run = scanner := by
    rw [behindRun, ready, List.isEmpty_nil, Bool.not_true, ← runName_eq,
      runName_eq_nil_iff.mpr unnamed, List.append_nil, ← ready]
  rw [scanner.scanFrom_run plain rfl, scanFrom.eq_def]
  simp [empty, ready]

/-- Template arguments end at the first closing bracket. -/
theorem Scanner.readTemplateArgs_closed (scanner : Scanner) {content : Text}
    (free : '>' ∉ content) (rest : Text) :
    scanner.readTemplateArgs (content ++ '>' :: rest) =
      (.ok (.templateArgs content (commaPieces content)), rest) := by
  have apart : ∀ char ∈ content, (char == '>') = false := by
    intro char member
    simpa using fun same : char = '>' => free (same ▸ member)
  rw [readTemplateArgs, distanceTo_append apart (by decide)]
  simp only [readClosed_append]
  rfl

/-- Template arguments without a closing bracket are rejected. -/
theorem Scanner.readTemplateArgs_open (scanner : Scanner) {unread : Text} (free : '>' ∉ unread) :
    scanner.readTemplateArgs unread =
      (.error (.rejected { offence := .unterminatedTemplate, char := [], symbol := scanner.symbol }),
        unread) := by
  have apart : ∀ char ∈ unread, (char == '>') = false := by
    intro char member
    simpa using fun same : char = '>' => free (same ▸ member)
  rw [readTemplateArgs, distanceTo_of_free apart]

/-- What is pending behind a run that names something is not empty. -/
theorem Scanner.name_behindRun {scanner : Scanner} (ready : scanner.name = []) {run : Text}
    (named : IsNamed run) : (scanner.behindRun run).name.isEmpty = false := by
  have spelled : runName run ≠ [] := fun empty => runName_eq_nil_iff.mp empty named
  simpa [behindRun, ready, runName_eq] using spelled

/-- Closed brackets behind a run that names something give its name and their content. -/
theorem Scanner.scanFrom_bracketed {scanner : Scanner} (ready : scanner.name = [])
    {run content : Text} (plain : IsRun run) (named : IsNamed run) (free : '>' ∉ content)
    (rest : Text) :
    scanner.scanFrom (run ++ '<' :: (content ++ '>' :: rest)) =
      (scanner.scanFrom rest).behind
        [.name (runName run), .templateArgs content (commaPieces content)]
        (spaceNotices scanner.symbol run) := by
  have read := readTemplateArgs_closed (scanner.behindRun run).flushed free rest
  rw [scanner.scanFrom_run plain rfl, scanFrom.eq_def]
  simp only [name_behindRun ready named, Bool.false_eq_true, if_false, Char.reduceEq,
    if_true]
  -- The match remembers what it was made on, so its outcomes are compared with the read.
  split
  next fault after failed => simp [read] at failed
  next token after succeeded =>
    simp only [read, Prod.mk.injEq, Except.ok.injEq] at succeeded
    obtain ⟨rfl, rfl⟩ := succeeded
    simp [flushed_behindRun ready, pending_behindRun ready, runTokens_of_isNamed named,
      Scan.behind_behind]

/-- Brackets that stay open are rejected at the end of the signature. -/
theorem Scanner.scanFrom_unterminated {scanner : Scanner} (ready : scanner.name = [])
    {run rest : Text} (plain : IsRun run) (named : IsNamed run) (free : '>' ∉ rest) :
    scanner.scanFrom (run ++ '<' :: rest) =
      (scanner.reject .unterminatedTemplate [] rest).behind []
        (spaceNotices scanner.symbol run) := by
  have read := readTemplateArgs_open (scanner.behindRun run).flushed free
  rw [scanner.scanFrom_run plain rfl, scanFrom.eq_def]
  simp only [name_behindRun ready named, Bool.false_eq_true, if_false, Char.reduceEq,
    if_true]
  split
  next fault after failed =>
    simp only [read, Prod.mk.injEq, Except.error.injEq] at failed
    obtain ⟨rfl, rfl⟩ := failed
    simp [flushed_behindRun ready, reject]
  next token after succeeded => simp [read] at succeeded

/-- A parenthesis hands over to the parameter list. -/
theorem Scanner.scanFrom_called {scanner : Scanner} (ready : scanner.name = []) {run : Text}
    (plain : IsRun run) (rest : Text) :
    scanner.scanFrom (run ++ '(' :: rest) =
      (scanner.scanParams rest).behind (runTokens run) (spaceNotices scanner.symbol run) := by
  rw [scanner.scanFrom_run plain rfl, scanFrom.eq_def]
  simp [pending_behindRun ready, flushed_behindRun ready, Scan.behind_behind]

/-- The parameter list ends at the last closing parenthesis, and the rest is left to what may follow
it. -/
theorem Scanner.scanParams_closed (scanner : Scanner) (content : Text) {trailing : Text}
    (free : ')' ∉ trailing) :
    scanner.scanParams (content ++ ')' :: trailing) =
      (scanner.scanTrailing trailing).behind [.params content (commaPieces content)] [] := by
  rw [scanParams, distanceToLast, lastPlace_append free]
  simp only [readClosed_append]
  rfl

/-- A parameter list without a closing parenthesis is rejected. -/
theorem Scanner.scanParams_open (scanner : Scanner) {unread : Text} (free : ')' ∉ unread) :
    scanner.scanParams unread = scanner.reject .unmatchedParen ['('] unread := by
  rw [scanParams, distanceToLast, lastPlace_of_not_mem free]

/-- Behind the parameter list none of the reads comes short. -/
theorem Scanner.scanTrailing_eq (scanner : Scanner) (unread : Text) :
    scanner.scanTrailing unread =
      match unread.dropWhile isSpaceOrTab with
      | [] => scanner.done [.stop] []
      | char :: rest =>
        if scanner.inScope && constWord.isPrefixOf (char :: rest) then
          -- What follows the member word is looked at past further blanks.
          match ((char :: rest).drop constWord.length).dropWhile isSpaceOrTab with
          | [] => scanner.done [.const, .stop] []
          | char :: rest => scanner.reject .unexpectedTrailing [char] (char :: rest)
        else scanner.reject .unexpectedTrailing [char] (char :: rest) := by
  rw [scanTrailing, skipBlanks_eq]
  cases unread.dropWhile isSpaceOrTab with
  | nil => rfl
  | cons char rest =>
    simp only
    split
    next allowed =>
      -- The member word is there, so it can be read.
      simp only [Bool.and_eq_true] at allowed
      obtain ⟨after, split⟩ := List.isPrefixOf_iff_prefix.mp allowed.2
      rw [← split, readExact_append, List.drop_left]
      simp only [skipBlanks_eq]
      cases after.dropWhile isSpaceOrTab <;> rfl
    next => rfl

end Mangling
