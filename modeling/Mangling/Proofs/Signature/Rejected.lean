import Mangling.Proofs.Signature.Grammar

/-! A signature is rejected at one place: behind a complete head, at a mark that cannot be passed. -/

namespace Mangling

/-- A complete head is a well-formed signature without a tail. -/
structure Signature.IsHead (inScope : Bool) (head : Signature) : Prop where
  formed : head.IsWellFormed inScope
  untailed : head.tail = .nothing

/-- The run at the end of a path, behind its last separator or bracket. -/
def Signature.lastRun (signature : Signature) : Text :=
  (signature.others.getLast?.getD signature.first).last

/-- What bars the way behind a run, inside a scope or not: a mark and the text behind it, with the
offence that they are and the character at fault. -/
inductive Bars (inScope : Bool) (run : Text) : Char → Text → Offence → Text → Prop where
  /-- A colon that no second one follows. -/
  | loneColon (rest : Text) (lone : rest.head? ≠ some ':') :
    Bars inScope run ':' rest .malformedScope rest.head?.toList
  /-- Brackets without a name in front. -/
  | unnamed (rest : Text) (unnamed : ¬IsNamed run) :
    Bars inScope run '<' rest .missingTemplateName ['<']
  /-- Brackets that stay open. -/
  | unterminated (rest : Text) (named : IsNamed run) (free : '>' ∉ rest) :
    Bars inScope run '<' rest .unterminatedTemplate []
  /-- A parenthesis that stays open. -/
  | unmatched (rest : Text) (free : ')' ∉ rest) :
    Bars inScope run '(' rest .unmatchedParen ['(']
  /-- Text behind the parameter list that the member word does not begin. -/
  | trailing (content trailing : Text) (free : ')' ∉ trailing) (char : Char) (behind : Text)
    (unblank : trailing.dropWhile isSpaceOrTab = char :: behind)
    (other : inScope = true → ¬constWord <+: char :: behind) :
    Bars inScope run '(' (content ++ ')' :: trailing) .unexpectedTrailing [char]
  /-- Text behind the member word. -/
  | afterMember (content trailing : Text) (free : ')' ∉ trailing) (nested : inScope = true)
    (after : Text) (member : trailing.dropWhile isSpaceOrTab = constWord ++ after)
    (char : Char) (behind : Text) (unblank : after.dropWhile isSpaceOrTab = char :: behind) :
    Bars inScope run '(' (content ++ ')' :: trailing) .unexpectedTrailing [char]

/-- A place where a scan cannot go on: the head in front, the mark there, the text behind it, the
offence, and the character at fault, if the signature has not come to its end. -/
structure Stop where
  head : Signature
  mark : Char
  rest : Text
  offence : Offence
  char : Text
  deriving DecidableEq

/-- A signature as it is divided by a stop. -/
def Stop.text (stop : Stop) : Text :=
  stop.head.text ++ stop.mark :: stop.rest

/-- A stop is well formed when its head is complete and what stands there bars the way. -/
structure Stop.IsWellFormed (inScope : Bool) (stop : Stop) : Prop where
  head : stop.head.IsHead inScope
  bars : Bars (inScope || !stop.head.others.isEmpty) stop.head.lastRun stop.mark stop.rest
    stop.offence stop.char

/-- The fault of a stop in a signature. -/
def Stop.fault (symbol : Text) (stop : Stop) : Fault :=
  .rejected { offence := stop.offence, char := stop.char, symbol }

@[simp] theorem Signature.others_ended (run : Text) (tail : Tail) :
    (ended run tail).others = [] := rfl

@[simp] theorem Signature.others_nested (run : Text) (rest : Signature) :
    (nested run rest).others = rest.first :: rest.others := rfl

@[simp] theorem Signature.others_bracketed (run content : Text) (rest : Signature) :
    (bracketed run content rest).others = rest.others := rfl

@[simp] theorem Signature.lastRun_ended (run : Text) (tail : Tail) :
    (ended run tail).lastRun = run := rfl

@[simp] theorem Signature.lastRun_nested (run : Text) (rest : Signature) :
    (nested run rest).lastRun = rest.lastRun := by
  simp [lastRun, nested, List.getLast?_cons]

@[simp] theorem Signature.lastRun_bracketed (run content : Text) (rest : Signature) :
    (bracketed run content rest).lastRun = rest.lastRun := by
  cases others : rest.others.getLast? <;> simp [lastRun, bracketed, others]

theorem Signature.isHead_ended {inScope : Bool} {run : Text} {tail : Tail} :
    (ended run tail).IsHead inScope ↔ IsRun run ∧ tail = .nothing := by
  constructor
  · intro complete
    exact ⟨(isWellFormed_ended.mp complete.formed).1, complete.untailed⟩
  · rintro ⟨plain, rfl⟩
    exact { formed := isWellFormed_ended.mpr ⟨plain, trivial⟩, untailed := rfl }

theorem Signature.isHead_nested {inScope : Bool} {run : Text} {rest : Signature} :
    (nested run rest).IsHead inScope ↔ IsRun run ∧ rest.IsHead true := by
  constructor
  · intro complete
    obtain ⟨plain, formed⟩ := isWellFormed_nested.mp complete.formed
    exact ⟨plain, { formed, untailed := complete.untailed }⟩
  · rintro ⟨plain, complete⟩
    exact { formed := isWellFormed_nested.mpr ⟨plain, complete.formed⟩
            untailed := complete.untailed }

theorem Signature.isHead_bracketed {inScope : Bool} {run content : Text} {rest : Signature} :
    (bracketed run content rest).IsHead inScope ↔
      (IsRun run ∧ IsNamed run ∧ '>' ∉ content) ∧ rest.IsHead inScope := by
  constructor
  · intro complete
    obtain ⟨front, formed⟩ := isWellFormed_bracketed.mp complete.formed
    exact ⟨front, { formed, untailed := complete.untailed }⟩
  · rintro ⟨front, complete⟩
    exact { formed := isWellFormed_bracketed.mpr ⟨front, complete.formed⟩
            untailed := complete.untailed }

/-- What bars the way is one of the marks that end a run. -/
theorem Bars.mark {inScope : Bool} {run : Text} {mark : Char} {rest : Text} {offence : Offence}
    {char : Text} (bars : Bars inScope run mark rest offence char) :
    mark = ':' ∨ mark = '<' ∨ mark = '(' := by
  cases bars <;> simp

/-- Behind a colon that bars the way no second one stands. -/
theorem Bars.lone {inScope : Bool} {run rest : Text} {offence : Offence} {char : Text}
    (bars : Bars inScope run ':' rest offence char) : rest.head? ≠ some ':' := by
  cases bars with
  | loneColon _ lone => exact lone

/-- Brackets that bar the way behind a name stay open. -/
theorem Bars.unclosed {inScope : Bool} {run rest : Text} {offence : Offence} {char : Text}
    (bars : Bars inScope run '<' rest offence char) (named : IsNamed run) : '>' ∉ rest := by
  cases bars with
  | unnamed _ unnamed => exact absurd named unnamed
  | unterminated _ _ free => exact free

/-- A mark is in no run. -/
theorem IsRun.mark_not_mem {run : Text} (plain : IsRun run) {mark : Char}
    (marked : mark = ':' ∨ mark = '<' ∨ mark = '(') : mark ∉ run := by
  intro member
  obtain ⟨colon, angle, paren⟩ := plain mark member
  rcases marked with same | same | same
  · exact colon same
  · exact angle same
  · exact paren same

/-- A text is divided in one way only into a run, the mark behind it, and the rest. -/
theorem IsRun.append_inj {run other : Text} (plain : IsRun run) (alsoPlain : IsRun other)
    {mark next : Char} (alsoMarked : mark = ':' ∨ mark = '<' ∨ mark = '(')
    (marked : next = ':' ∨ next = '<' ∨ next = '(') {rest after : Text}
    (same : run ++ mark :: rest = other ++ next :: after) :
    run = other ∧ mark = next ∧ rest = after :=
  append_cons_inj (plain.mark_not_mem marked) (alsoPlain.mark_not_mem alsoMarked) same

/-- Behind some tokens a scan fails as it does by itself. -/
theorem Scan.result_behind_eq_error_iff {scan : Scan} {front : List Token} {notices : List Notice}
    {fault : Fault} :
    (scan.behind front notices).result = .error fault ↔ scan.result = .error fault := by
  cases result : scan.result <;> simp [behind, result, Except.map]

/-- Where something bars the way, the signature is rejected for it. -/
theorem Bars.rejects {scanner : Scanner} (ready : scanner.name = []) {run : Text}
    (plain : IsRun run) {mark : Char} {rest : Text} {offence : Offence} {char : Text}
    (bars : Bars scanner.inScope run mark rest offence char) :
    (scanner.scanFrom (run ++ mark :: rest)).result =
      .error (.rejected { offence, char, symbol := scanner.symbol }) := by
  cases bars with
  | loneColon rest lone =>
    rw [Scanner.scanFrom_malformed ready plain lone]
    rfl
  | unnamed rest unnamed =>
    rw [Scanner.scanFrom_unnamed ready plain unnamed]
    rfl
  | unterminated rest named free =>
    rw [Scanner.scanFrom_unterminated ready plain named free]
    rfl
  | unmatched rest free =>
    rw [Scanner.scanFrom_called ready plain, Scanner.scanParams_open _ free]
    rfl
  | trailing content trailing free char behind unblank other =>
    have refused : (scanner.inScope && constWord.isPrefixOf (char :: behind)) = false := by
      rw [Bool.and_eq_false_imp]
      intro nested
      exact eq_false_of_ne_true fun begun => other nested (List.isPrefixOf_iff_prefix.mp begun)
    rw [Scanner.scanFrom_called ready plain, Scanner.scanParams_closed _ _ free,
      Scanner.scanTrailing_eq, unblank]
    simp [refused, Scanner.reject, Scanner.fail, Scan.behind, Except.map]
  | afterMember content trailing free nested after member char behind unblank =>
    have word : constWord ++ after = 'c' :: ("onst".toList ++ after) := rfl
    have allowed : (scanner.inScope && constWord.isPrefixOf (constWord ++ after)) = true := by
      simp [nested]
    rw [Scanner.scanFrom_called ready plain, Scanner.scanParams_closed _ _ free,
      Scanner.scanTrailing_eq, member, word]
    simp only [← word, allowed, if_true, List.drop_left, unblank]
    rfl

/-- What is rejected behind a parameter list bars the way in front of the list. -/
theorem Scanner.exists_bars_of_scanTrailing {scanner : Scanner} {trailing : Text} {fault : Fault}
    (rejected : (scanner.scanTrailing trailing).result = .error fault) (run content : Text)
    (free : ')' ∉ trailing) :
    ∃ offence char, Bars scanner.inScope run '(' (content ++ ')' :: trailing) offence char ∧
      fault = .rejected { offence, char, symbol := scanner.symbol } := by
  rw [scanTrailing_eq] at rejected
  cases unblank : trailing.dropWhile isSpaceOrTab with
  | nil => simp [unblank, done] at rejected
  | cons char behind =>
    simp only [unblank] at rejected
    split at rejected
    next allowed =>
      simp only [Bool.and_eq_true] at allowed
      obtain ⟨after, written⟩ := List.isPrefixOf_iff_prefix.mp allowed.2
      rw [← written, List.drop_left] at rejected
      cases spent : after.dropWhile isSpaceOrTab with
      | nil => simp [spent, done] at rejected
      | cons next others =>
        simp only [spent, reject, fail, Except.error.injEq] at rejected
        exact ⟨_, _, .afterMember content trailing free allowed.1 after
          (unblank.trans written.symm) next others spent, rejected.symm⟩
    next refused =>
      simp only [reject, fail, Except.error.injEq] at rejected
      refine ⟨_, _, .trailing content trailing free char behind unblank ?_, rejected.symm⟩
      intro nested member
      exact refused (by simpa [nested] using member)

/-- A rejected parameter list, with what follows it, bars the way. -/
theorem Scanner.exists_bars_of_scanParams {scanner : Scanner} {rest : Text} {fault : Fault}
    (rejected : (scanner.scanParams rest).result = .error fault) (run : Text) :
    ∃ offence char, Bars scanner.inScope run '(' rest offence char ∧
      fault = .rejected { offence, char, symbol := scanner.symbol } := by
  by_cases closed : ')' ∈ rest
  · obtain ⟨content, trailing, rfl, free⟩ := exists_last_split closed
    rw [scanParams_closed _ _ free, Scan.result_behind_eq_error_iff] at rejected
    exact exists_bars_of_scanTrailing rejected run content free
  · rw [scanParams_open _ closed] at rejected
    simp only [reject, fail, Except.error.injEq] at rejected
    exact ⟨_, _, .unmatched rest closed, rejected.symm⟩

/-- Behind a complete head, what bars the way is what the signature is rejected for. -/
theorem Signature.IsHead.rejects {head : Signature} {scanner : Scanner}
    (complete : head.IsHead scanner.inScope) (ready : scanner.name = []) {mark : Char} {rest : Text}
    {offence : Offence} {char : Text}
    (bars : Bars (scanner.inScope || !head.others.isEmpty) head.lastRun mark rest offence char) :
    (scanner.scanFrom (head.text ++ mark :: rest)).result =
      .error (.rejected { offence, char, symbol := scanner.symbol }) := by
  induction head using Signature.frontInduction generalizing scanner with
  | ended run tail =>
    obtain ⟨plain, rfl⟩ := isHead_ended.mp complete
    rw [text_ended, Tail.text, List.append_nil]
    exact Bars.rejects ready plain (by simpa using bars)
  | nested run inner ih =>
    obtain ⟨plain, complete⟩ := isHead_nested.mp complete
    rw [text_nested, List.append_assoc, List.cons_append, List.cons_append,
      Scanner.scanFrom_nested ready plain, Scan.result_behind_eq_error_iff]
    exact @ih scanner.entered complete ready
      (by simpa [Scanner.entered] using bars)
  | bracketed run content inner ih =>
    obtain ⟨⟨plain, named, free⟩, complete⟩ := isHead_bracketed.mp complete
    rw [text_bracketed, List.append_assoc, List.cons_append, List.append_assoc, List.cons_append,
      Scanner.scanFrom_bracketed ready plain named free, Scan.result_behind_eq_error_iff]
    exact ih complete ready (by simpa using bars)

/-- A run with something behind it that bars the way comes to a stop there. -/
theorem Bars.exists_stop {inScope : Bool} {run : Text} (plain : IsRun run) {mark : Char}
    {rest : Text} {offence : Offence} {char : Text}
    (bars : Bars inScope run mark rest offence char) {symbol : Text} {fault : Fault}
    (same : .rejected { offence, char, symbol } = fault) :
    ∃ stop : Stop, stop.IsWellFormed inScope ∧ stop.text = run ++ mark :: rest ∧
      fault = stop.fault symbol := by
  refine ⟨{ head := .ended run .nothing, mark, rest, offence, char }, ?_, ?_, same.symm⟩
  · exact { head := Signature.isHead_ended.mpr ⟨plain, rfl⟩, bars := by simpa using bars }
  · simp [Stop.text, Tail.text]

/-- A rejected text comes to a stop. -/
theorem Scanner.exists_stop {text : Text} {scanner : Scanner} (ready : scanner.name = [])
    {fault : Fault} (rejected : (scanner.scanFrom text).result = .error fault) :
    ∃ stop : Stop, stop.IsWellFormed scanner.inScope ∧ stop.text = text ∧
      fault = stop.fault scanner.symbol := by
  induction text using scanInduction generalizing scanner with
  | ended run plain => simp [scanFrom_ended ready plain, done, Scan.behind, Except.map] at rejected
  | nested run rest plain ih =>
    rw [scanFrom_nested ready plain, Scan.result_behind_eq_error_iff] at rejected
    obtain ⟨stop, formed, rfl, same⟩ := @ih scanner.entered ready rejected
    refine ⟨{ stop with head := .nested run stop.head }, ?_, by simp [Stop.text], same⟩
    exact { head := Signature.isHead_nested.mpr ⟨plain, formed.head⟩
            bars := by simpa [Scanner.entered] using formed.bars }
  | malformed run rest plain lone =>
    rw [scanFrom_malformed ready plain lone, Scan.result_behind_eq_error_iff] at rejected
    simp only [reject, fail, Except.error.injEq] at rejected
    exact Bars.exists_stop plain (.loneColon rest lone) rejected
  | bracketed run content rest plain named free ih =>
    rw [scanFrom_bracketed ready plain named free, Scan.result_behind_eq_error_iff] at rejected
    obtain ⟨stop, formed, rfl, same⟩ := ih ready rejected
    refine ⟨{ stop with head := .bracketed run content stop.head }, ?_, by simp [Stop.text], same⟩
    exact { head := Signature.isHead_bracketed.mpr ⟨⟨plain, named, free⟩, formed.head⟩
            bars := by simpa using formed.bars }
  | unterminated run rest plain named free =>
    rw [scanFrom_unterminated ready plain named free, Scan.result_behind_eq_error_iff] at rejected
    simp only [reject, fail, Except.error.injEq] at rejected
    exact Bars.exists_stop plain (.unterminated rest named free) rejected
  | unnamed run rest plain unnamed =>
    rw [scanFrom_unnamed ready plain unnamed, Scan.result_behind_eq_error_iff] at rejected
    simp only [reject, fail, Except.error.injEq] at rejected
    exact Bars.exists_stop plain (.unnamed rest unnamed) rejected
  | called run rest plain =>
    rw [scanFrom_called ready plain, Scan.result_behind_eq_error_iff] at rejected
    obtain ⟨offence, char, bars, same⟩ := exists_bars_of_scanParams rejected run
    exact bars.exists_stop plain same.symm

/-- What bars the way is no separator behind a run. -/
theorem Bars.ne_nested {inScope : Bool} {run : Text} (plain : IsRun run) {mark : Char} {rest : Text}
    {offence : Offence} {char : Text} (bars : Bars inScope run mark rest offence char)
    {other : Text} (alsoPlain : IsRun other) (after : Text) :
    run ++ mark :: rest ≠ other ++ ':' :: ':' :: after := by
  intro same
  obtain ⟨-, rfl, rfl⟩ := plain.append_inj alsoPlain bars.mark (by simp) same
  exact bars.lone rfl

/-- What bars the way is no closed brackets behind a run that names something. -/
theorem Bars.ne_bracketed {inScope : Bool} {run : Text} (plain : IsRun run) {mark : Char}
    {rest : Text} {offence : Offence} {char : Text} (bars : Bars inScope run mark rest offence char)
    {other : Text} (alsoPlain : IsRun other) (named : IsNamed other) (content after : Text) :
    run ++ mark :: rest ≠ other ++ '<' :: (content ++ '>' :: after) := by
  intro same
  obtain ⟨rfl, rfl, rfl⟩ := plain.append_inj alsoPlain bars.mark (by simp) same
  exact bars.unclosed named (by simp)

/-- A text comes to a stop in one place only, and its head is divided in one way only. -/
theorem Signature.IsHead.unique {head other : Signature} {inScope : Bool}
    (complete : head.IsHead inScope) (alsoComplete : other.IsHead inScope) {mark next : Char}
    {rest after : Text} {offence offence' : Offence} {char char' : Text}
    (bars : Bars (inScope || !head.others.isEmpty) head.lastRun mark rest offence char)
    (alsoBars : Bars (inScope || !other.others.isEmpty) other.lastRun next after offence' char')
    (same : head.text ++ mark :: rest = other.text ++ next :: after) :
    head = other ∧ mark = next ∧ rest = after := by
  -- Both heads are taken apart at their fronts, where the next mark tells how they go on.
  induction head using Signature.frontInduction generalizing other inScope with
  | ended run tail =>
    obtain ⟨plain, rfl⟩ := isHead_ended.mp complete
    rw [text_ended, Tail.text, List.append_nil] at same
    rw [lastRun_ended] at bars
    cases other using Signature.frontInduction with
    | ended run' tail' =>
      obtain ⟨alsoPlain, rfl⟩ := isHead_ended.mp alsoComplete
      rw [text_ended, Tail.text, List.append_nil] at same
      obtain ⟨rfl, rfl, rfl⟩ := plain.append_inj alsoPlain bars.mark alsoBars.mark same
      exact ⟨rfl, rfl, rfl⟩
    | nested run' inner =>
      rw [text_nested, List.append_assoc] at same
      exact absurd same (bars.ne_nested plain (isHead_nested.mp alsoComplete).1 _)
    | bracketed run' content inner =>
      obtain ⟨⟨alsoPlain, named, -⟩, -⟩ := isHead_bracketed.mp alsoComplete
      simp only [text_bracketed, List.append_assoc, List.cons_append] at same
      exact absurd same (bars.ne_bracketed plain alsoPlain named _ _)
  | nested run inner ih =>
    obtain ⟨plain, inside⟩ := isHead_nested.mp complete
    rw [text_nested, List.append_assoc] at same
    cases other using Signature.frontInduction with
    | ended run' tail' =>
      obtain ⟨alsoPlain, rfl⟩ := isHead_ended.mp alsoComplete
      rw [text_ended, Tail.text, List.append_nil] at same
      rw [lastRun_ended] at alsoBars
      exact absurd same.symm (alsoBars.ne_nested alsoPlain plain _)
    | nested run' inner' =>
      obtain ⟨alsoPlain, alsoInside⟩ := isHead_nested.mp alsoComplete
      rw [text_nested, List.append_assoc] at same
      obtain ⟨rfl, -, rest⟩ := plain.append_inj alsoPlain (by simp) (by simp) same
      obtain ⟨rfl, marks⟩ := ih inside alsoInside (by simpa using bars) (by simpa using alsoBars)
        (List.cons.inj rest).2
      exact ⟨rfl, marks⟩
    | bracketed run' content inner' =>
      obtain ⟨⟨alsoPlain, -, -⟩, -⟩ := isHead_bracketed.mp alsoComplete
      rw [text_bracketed, List.append_assoc] at same
      exact absurd (plain.append_inj alsoPlain (by simp) (by simp) same).2.1 (by decide)
  | bracketed run content inner ih =>
    obtain ⟨⟨plain, named, free⟩, inside⟩ := isHead_bracketed.mp complete
    simp only [text_bracketed, List.append_assoc, List.cons_append] at same
    cases other using Signature.frontInduction with
    | ended run' tail' =>
      obtain ⟨alsoPlain, rfl⟩ := isHead_ended.mp alsoComplete
      rw [text_ended, Tail.text, List.append_nil] at same
      rw [lastRun_ended] at alsoBars
      exact absurd same.symm (alsoBars.ne_bracketed alsoPlain plain named _ _)
    | nested run' inner' =>
      obtain ⟨alsoPlain, -⟩ := isHead_nested.mp alsoComplete
      rw [text_nested, List.append_assoc] at same
      exact absurd (plain.append_inj alsoPlain (by simp) (by simp) same).2.1 (by decide)
    | bracketed run' content' inner' =>
      obtain ⟨⟨alsoPlain, -, alsoFree⟩, alsoInside⟩ := isHead_bracketed.mp alsoComplete
      simp only [text_bracketed, List.append_assoc, List.cons_append] at same
      obtain ⟨rfl, -, rest⟩ := plain.append_inj alsoPlain (by simp) (by simp) same
      obtain ⟨rfl, -, behind⟩ := append_cons_inj free alsoFree rest
      obtain ⟨rfl, marks⟩ := ih inside alsoInside (by simpa using bars) (by simpa using alsoBars)
        behind
      exact ⟨rfl, marks⟩

/-- A well-formed stop is the reason for which its text is rejected. -/
theorem Stop.IsWellFormed.rejected {stop : Stop} (formed : stop.IsWellFormed false) :
    (scanSignature stop.text).result = .error (stop.fault stop.text) := by
  rw [result_scanSignature]
  exact @Signature.IsHead.rejects stop.head { symbol := stop.text } formed.head rfl _ _ _ _
    formed.bars

/-- A text has at most one stop, because its fault tells the rest once the place is known. -/
theorem Stop.IsWellFormed.unique {stop other : Stop} (formed : stop.IsWellFormed false)
    (alsoFormed : other.IsWellFormed false) (same : stop.text = other.text) : stop = other := by
  obtain ⟨head, mark, rest⟩ := formed.head.unique alsoFormed.head formed.bars alsoFormed.bars same
  have fault := formed.rejected.symm.trans (same ▸ alsoFormed.rejected)
  simp only [Stop.fault, Except.error.injEq, Fault.rejected.injEq, Rejection.mk.injEq] at fault
  obtain ⟨offence, char, -⟩ := fault
  cases stop
  cases other
  simp only [Stop.mk.injEq]
  exact ⟨head, mark, rest, offence, char⟩

/-- A scan rejects a signature exactly for the one stop that the signature has: the first place where
something bars the way. -/
theorem scanSignature_eq_error_iff (signature : Text) (fault : Fault) :
    (scanSignature signature).result = .error fault ↔
      ∃ stop : Stop, stop.IsWellFormed false ∧ stop.text = signature ∧
        fault = stop.fault signature ∧
        ∀ other : Stop, other.IsWellFormed false → other.text = signature → other = stop := by
  constructor
  · intro rejected
    rw [result_scanSignature] at rejected
    obtain ⟨stop, formed, rfl, same⟩ := @Scanner.exists_stop signature { symbol := signature } rfl _ rejected
    exact ⟨stop, formed, rfl, same, fun other alsoFormed text => alsoFormed.unique formed text⟩
  · rintro ⟨stop, formed, rfl, rfl, -⟩
    exact formed.rejected

end Mangling
