import Mangling.Proofs.Signature.Rejected

/-! The head of a signature, up to its parameter list or to where it is rejected, tells what a scan
notices and whether it ends inside a scope. -/

namespace Mangling

/-- What can follow a head that ends with a run: nothing, the parenthesis of a parameter list, or a
colon or bracket that cannot be passed. -/
inductive EndsHead (run : Text) : Text → Prop where
  | spent : EndsHead run []
  | opened (rest : Text) : EndsHead run ('(' :: rest)
  | loneColon (rest : Text) (lone : rest.head? ≠ some ':') : EndsHead run (':' :: rest)
  | unnamed (rest : Text) (unnamed : ¬IsNamed run) : EndsHead run ('<' :: rest)
  | unterminated (rest : Text) (named : IsNamed run) (free : '>' ∉ rest) : EndsHead run ('<' :: rest)

/-- A signature as its head and what follows it. -/
structure Heading (signature : Text) where
  head : Signature
  rest : Text
  complete : head.IsHead false
  ends : EndsHead head.lastRun rest
  written : head.text ++ rest = signature

/-- The text of a segment outside its brackets. -/
def Segment.outside (segment : Segment) : Text :=
  segment.bracketed.flatMap Prod.fst ++ segment.last

/-- The text of a head outside its brackets and separators. -/
def Signature.outside (head : Signature) : Text :=
  (head.first :: head.others).flatMap Segment.outside

/-- Whether a separator stands in a head. -/
def Signature.isNested (head : Signature) : Bool :=
  -- The first segment stands in front of all of them.
  !head.others.isEmpty

@[simp] theorem Signature.outside_ended (run : Text) (tail : Tail) :
    (ended run tail).outside = run := by
  simp [outside, ended, Segment.outside]

@[simp] theorem Signature.outside_nested (run : Text) (rest : Signature) :
    (nested run rest).outside = run ++ rest.outside := by
  simp [outside, nested, Segment.outside]

@[simp] theorem Signature.outside_bracketed (run content : Text) (rest : Signature) :
    (bracketed run content rest).outside = run ++ rest.outside := by
  simp [outside, bracketed, Segment.outside]

@[simp] theorem Signature.isNested_ended (run : Text) (tail : Tail) :
    (ended run tail).isNested = false := rfl

@[simp] theorem Signature.isNested_nested (run : Text) (rest : Signature) :
    (nested run rest).isNested = true := rfl

@[simp] theorem Signature.isNested_bracketed (run content : Text) (rest : Signature) :
    (bracketed run content rest).isNested = rest.isNested := rfl

/-- The notices of one run come in front of those of the next. -/
theorem spaceNotices_append (symbol run more : Text) :
    spaceNotices symbol (run ++ more) = spaceNotices symbol run ++ spaceNotices symbol more := by
  rw [spaceNotices, List.count_append, ← List.replicate_append_replicate]
  rfl

/-- What a scan leaves behind beside its result: the scanner, and the notices given. -/
structure Scan.Leaves (scan : Scan) (scanner : Scanner) (notices : List Notice) : Prop where
  scanner : scan.scanner = scanner
  notices : scan.notices = notices

/-- A scan that comes behind other notices leaves these as well. -/
theorem Scan.Leaves.behind {scan : Scan} {scanner : Scanner} {notices : List Notice}
    (leaves : scan.Leaves scanner notices) (tokens : List Token) (front : List Notice) :
    (scan.behind tokens front).Leaves scanner (front ++ notices) :=
  { scanner := leaves.scanner, notices := congrArg (front ++ ·) leaves.notices }

/-- A parameter list and what follows it change nothing about the scanner, and are worth no notice. -/
theorem Scanner.leaves_scanParams (scanner : Scanner) (unread : Text) :
    (scanner.scanParams unread).Leaves scanner [] := by
  by_cases closed : ')' ∈ unread
  · obtain ⟨content, trailing, rfl, free⟩ := exists_last_split closed
    -- Behind the list the scan ends, in tokens or in a fault.
    have trailed : (scanner.scanTrailing trailing).Leaves scanner [] := by
      rw [scanTrailing_eq]
      cases trailing.dropWhile isSpaceOrTab with
      | nil => exact ⟨rfl, rfl⟩
      | cons char rest =>
        simp only
        split
        · cases ((char :: rest).drop constWord.length).dropWhile isSpaceOrTab <;> exact ⟨rfl, rfl⟩
        · exact ⟨rfl, rfl⟩
    rw [scanParams_closed _ _ free]
    exact trailed.behind _ []
  · rw [scanParams_open _ closed]
    exact ⟨rfl, rfl⟩

/-- Where a head ends, its last run is noticed, and the scanner is as in front of the run. -/
theorem EndsHead.leaves {scanner : Scanner} (ready : scanner.name = []) {run : Text}
    (plain : IsRun run) {rest : Text} (ends : EndsHead run rest) :
    (scanner.scanFrom (run ++ rest)).Leaves scanner (spaceNotices scanner.symbol run) := by
  rw [← List.append_nil (spaceNotices scanner.symbol run)]
  cases ends with
  | spent =>
    rw [List.append_nil, Scanner.scanFrom_ended ready plain]
    exact Scan.Leaves.behind ⟨rfl, rfl⟩ _ _
  | opened rest =>
    rw [Scanner.scanFrom_called ready plain]
    exact (scanner.leaves_scanParams rest).behind _ _
  | loneColon rest lone =>
    rw [Scanner.scanFrom_malformed ready plain lone]
    exact Scan.Leaves.behind ⟨rfl, rfl⟩ _ _
  | unnamed rest unnamed =>
    rw [Scanner.scanFrom_unnamed ready plain unnamed]
    exact Scan.Leaves.behind ⟨rfl, rfl⟩ _ _
  | unterminated rest named free =>
    rw [Scanner.scanFrom_unterminated ready plain named free]
    exact Scan.Leaves.behind ⟨rfl, rfl⟩ _ _

/-- A scan leaves no pending name, whatever it comes to. It ends inside a scope if it began there or
has met a separator in the head, and has given a notice for each space of the head outside brackets. -/
theorem Signature.IsHead.leaves {head : Signature} {scanner : Scanner}
    (complete : head.IsHead scanner.inScope) (ready : scanner.name = []) {rest : Text}
    (ends : EndsHead head.lastRun rest) :
    (scanner.scanFrom (head.text ++ rest)).Leaves
      { scanner with inScope := scanner.inScope || head.isNested }
      (spaceNotices scanner.symbol head.outside) := by
  induction head using Signature.frontInduction generalizing scanner with
  | ended run tail =>
    obtain ⟨plain, rfl⟩ := isHead_ended.mp complete
    rw [text_ended, Tail.text, List.append_nil, outside_ended, isNested_ended, Bool.or_false]
    exact EndsHead.leaves ready plain ends
  | nested run inner ih =>
    obtain ⟨plain, complete⟩ := isHead_nested.mp complete
    rw [lastRun_nested] at ends
    have behind := (@ih scanner.entered complete ready ends).behind (runTokens run ++ [.scope])
      (spaceNotices scanner.symbol run)
    rw [text_nested, List.append_assoc, List.cons_append, List.cons_append,
      Scanner.scanFrom_nested ready plain, outside_nested, isNested_nested, Bool.or_true,
      spaceNotices_append]
    exact behind
  | bracketed run content inner ih =>
    obtain ⟨⟨plain, named, free⟩, complete⟩ := isHead_bracketed.mp complete
    rw [lastRun_bracketed] at ends
    rw [text_bracketed, List.append_assoc, List.cons_append, List.append_assoc, List.cons_append,
      Scanner.scanFrom_bracketed ready plain named free, outside_bracketed, isNested_bracketed,
      spaceNotices_append]
    exact (ih complete ready ends).behind _ _

/-- A run with the end of a head behind it is a complete head by itself. -/
theorem EndsHead.exists_head {run rest : Text} (ends : EndsHead run rest) (plain : IsRun run)
    (inScope : Bool) :
    ∃ (head : Signature) (behind : Text), head.IsHead inScope ∧ EndsHead head.lastRun behind ∧
      head.text ++ behind = run ++ rest :=
  ⟨.ended run .nothing, rest, Signature.isHead_ended.mpr ⟨plain, rfl⟩, ends, by simp [Tail.text]⟩

/-- Every text begins with a complete head. -/
theorem exists_head (inScope : Bool) (text : Text) :
    ∃ (head : Signature) (behind : Text), head.IsHead inScope ∧ EndsHead head.lastRun behind ∧
      head.text ++ behind = text := by
  induction text using scanInduction generalizing inScope with
  | ended run plain => simpa using EndsHead.spent.exists_head plain inScope
  | nested run rest plain ih =>
    obtain ⟨head, behind, complete, ends, rfl⟩ := ih true
    exact ⟨.nested run head, behind, Signature.isHead_nested.mpr ⟨plain, complete⟩,
      by simpa using ends, by simp⟩
  | malformed run rest plain lone => exact (EndsHead.loneColon rest lone).exists_head plain inScope
  | bracketed run content rest plain named free ih =>
    obtain ⟨head, behind, complete, ends, rfl⟩ := ih inScope
    exact ⟨.bracketed run content head, behind,
      Signature.isHead_bracketed.mpr ⟨⟨plain, named, free⟩, complete⟩, by simpa using ends, by simp⟩
  | unterminated run rest plain named free =>
    exact (EndsHead.unterminated rest named free).exists_head plain inScope
  | unnamed run rest plain unnamed =>
    exact (EndsHead.unnamed rest unnamed).exists_head plain inScope
  | called run rest plain => exact (EndsHead.opened rest).exists_head plain inScope

/-- Every signature has a head. -/
theorem nonempty_heading (signature : Text) : Nonempty (Heading signature) := by
  obtain ⟨head, rest, complete, ends, written⟩ := exists_head false signature
  exact ⟨{ head, rest, complete, ends, written }⟩

/-- The scan of a signature leaves a scanner without a pending name, inside a scope exactly if the head
has a separator, and a notice for each space of the head outside brackets. -/
theorem Heading.leaves {signature : Text} (heading : Heading signature) :
    (scanSignature signature).Leaves
      { symbol := signature, name := [], inScope := heading.head.isNested }
      (spaceNotices signature heading.head.outside) := by
  have left := @Signature.IsHead.leaves heading.head { symbol := signature } heading.complete rfl _
    heading.ends
  rw [heading.written, Bool.false_or] at left
  -- The last look at the unread text can change the result only.
  rw [scanSignature, Scanner.scan]
  simp only
  split
  · exact left
  · split <;> exact ⟨left.scanner, left.notices⟩

end Mangling
