import Mangling.CommandLine.Session
import Mangling.Proofs.Symbol.Notices
import Mangling.Proofs.Symbol.Outcome
import Mathlib.Data.List.Forall2

/-! Batches of signatures on the command line: what is printed, the status, and the notices, for
every combination of switches. -/

namespace Mangling

/-- The result of mangling a signature, if there is one. -/
def symbolOf (signature : Text) : Option Text :=
  (mangle signature).outcome.toOption

/-- Whether mangling a signature raises. -/
def raises (signature : Text) : Bool :=
  (symbolOf signature).isNone

/-- The signatures that a batch reaches: all of them, or those up to the first that raises. -/
def reachedSignatures (keepGoing : Bool) (signatures : List Text) : List Text :=
  if keepGoing then signatures
  else
    -- The one that ends the batch has been reached too.
    signatures.take ((signatures.takeWhile fun signature => !raises signature).length + 1)

/-- A notice tells of the rejection of a signature. -/
def Notice.Reports (notice : Notice) (signature : Text) : Prop :=
  ∃ rejection, notice = .rejected rejection ∧
    (mangle signature).outcome = .error (.rejected rejection)

/-- The notice of a rejection, if there is one. -/
def rejectionNotices (signature : Text) : List Notice :=
  match (mangle signature).outcome with
  | .error (.rejected rejection) => [.rejected rejection]
  | _ => []

/-- What a signature is worth in a batch: the notices of its mangling, and that of its rejection. -/
def signatureNotices (signature : Text) : List Notice :=
  (mangle signature).notices ++ rejectionNotices signature

/-- The notices that switches let through: everything, or only errors, or all but the least. -/
def letsThrough (verbose quiet : Bool) (notice : Notice) : Bool :=
  -- Asking for everything wins.
  if verbose then true
  else if quiet then notice.level == .error
  else notice.level != .debug

/-- A request to mangle a batch of signatures. -/
def batchRequest (verbose quiet keepGoing : Bool) (signatures : List Text) : Request :=
  { verbose, quiet, command := .mangle keepGoing signatures }

/-- The arguments of the command line for a batch of signatures. -/
def batchArguments (verbose quiet keepGoing : Bool) (signatures : List Text) : List Text :=
  (if verbose then ["--verbose".toList] else []) ++ (if quiet then ["--quiet".toList] else []) ++
    "mangle".toList :: ((if keepGoing then ["--keep-going".toList] else []) ++
      -- Signatures may look like switches.
      endOfSwitches :: signatures)

/-- No notice of a scan is an error. -/
theorem level_ne_error_of_mem_scan {signature : Text} {notice : Notice}
    (member : notice ∈ (scanSignature signature).notices) : notice.level ≠ .error := by
  obtain ⟨heading⟩ := nonempty_heading signature
  rw [heading.leaves.notices, spaceNotices] at member
  simp [List.eq_of_mem_replicate member, Notice.level]

/-- No notice that scanned tokens are worth is an error. -/
theorem Token.level_ne_error {symbol : Text} {token : Token} {notice : Notice}
    (member : notice ∈ token.notices symbol) : notice.level ≠ .error := by
  cases token with
  | params content items =>
    -- A list can lack types, of which there are warnings only.
    rw [Token.notices, listNotices] at member
    split at member
    · simp at member
    · simp [List.eq_of_mem_replicate member, Notice.level]
  | name | scope | templateArgs | const | stop => simp [Token.notices] at member

/-- No notice of mangling is an error: errors are told of rejections only. -/
theorem level_ne_error_of_mem_mangle {signature : Text} {notice : Notice}
    (member : notice ∈ (mangle signature).notices) : notice.level ≠ .error := by
  unfold mangle at member
  cases scanned : (scanSignature signature).result with
  | error fault =>
    simp only [scanned] at member
    exact level_ne_error_of_mem_scan member
  | ok tokens =>
    simp only [scanned, Draft.notices_assemble scanned] at member
    have early : notice ∈ (scanSignature signature).notices ++
        tokens.flatMap (Token.notices signature) → notice.level ≠ .error := by
      intro among
      rcases List.mem_append.mp among with scanning | assembling
      · exact level_ne_error_of_mem_scan scanning
      · obtain ⟨token, _, worth⟩ := List.mem_flatMap.mp assembling
        exact token.level_ne_error worth
    split at member
    next fault failed => exact early member
    next symbol succeeded =>
      -- Behind a success there is one notice more, of the least level.
      rcases List.mem_append.mp member with among | last
      · exact early among
      · simp [List.mem_singleton.mp last, Notice.level]

/-- A signature that is mangled is printed, and the batch goes on. -/
theorem mangleAll_of_symbol {signature symbol : Text}
    (outcome : (mangle signature).outcome = .ok symbol) (keepGoing : Bool)
    (signatures : List Text) :
    mangleAll keepGoing (signature :: signatures) =
      (mangleAll keepGoing signatures).behind [symbol] (mangle signature).notices := by
  simp [mangleAll, tryMangle, outcome, Attempt.unwrap, Except.bind]

/-- A signature that is rejected is noticed, and the batch fails and goes on only if it is to keep
going. -/
theorem mangleAll_of_rejection {signature : Text} {rejection : Rejection}
    (outcome : (mangle signature).outcome = .error (.rejected rejection)) (keepGoing : Bool)
    (signatures : List Text) :
    mangleAll keepGoing (signature :: signatures) =
      ((if keepGoing then mangleAll keepGoing signatures else {}).behind []
        ((mangle signature).notices ++ [.rejected rejection])).failed := by
  simp [mangleAll, tryMangle, outcome, Attempt.unwrap, Except.bind]

/-- A batch goes on behind a signature that does not raise. -/
theorem reachedSignatures_cons_of_not_raises {signature : Text} (mangled : raises signature = false)
    (keepGoing : Bool) (signatures : List Text) :
    reachedSignatures keepGoing (signature :: signatures) =
      signature :: reachedSignatures keepGoing signatures := by
  -- A signature in front that does not raise is one more that is taken.
  cases keepGoing <;> simp [reachedSignatures, mangled]

/-- A batch goes on behind a signature that raises only if it is to keep going. -/
theorem reachedSignatures_cons_of_raises {signature : Text} (rejected : raises signature = true)
    (keepGoing : Bool) (signatures : List Text) :
    reachedSignatures keepGoing (signature :: signatures) =
      signature :: if keepGoing then reachedSignatures keepGoing signatures else [] := by
  cases keepGoing <;> simp [reachedSignatures, rejected]

/-- A batch prints the results of the signatures that it reaches, gives the notices that these are
worth, and fails exactly if some signature raises, reached or not. -/
theorem mangleAll_eq (keepGoing : Bool) (signatures : List Text) :
    mangleAll keepGoing signatures =
      { printed := (reachedSignatures keepGoing signatures).filterMap symbolOf
        notices := (reachedSignatures keepGoing signatures).flatMap signatureNotices
        outcome := .ok (if signatures.any raises then 1 else 0) } := by
  -- Mangling can fail in one way only, so each signature is a step of one of two kinds.
  induction signatures with
  | nil => cases keepGoing <;> rfl
  | cons signature signatures ih =>
    rcases mangle_outcome signature with ⟨symbol, outcome⟩ | ⟨rejection, outcome, _⟩
    · have found : symbolOf signature = some symbol := by simp [symbolOf, outcome, Except.toOption]
      have mangled : raises signature = false := by simp [raises, found]
      rw [mangleAll_of_symbol outcome, ih, reachedSignatures_cons_of_not_raises mangled]
      simp [Session.behind, found, mangled, signatureNotices, rejectionNotices, outcome]
    · have missing : symbolOf signature = none := by simp [symbolOf, outcome, Except.toOption]
      have rejected : raises signature = true := by simp [raises, missing]
      rw [mangleAll_of_rejection outcome, ih, reachedSignatures_cons_of_raises rejected]
      -- Whether the batch goes on or not, it cannot succeed any more.
      cases keepGoing <;>
        simp [Session.behind, Session.failed, missing, rejected, signatureNotices,
          rejectionNotices, outcome, Except.map]

/-- Without keeping going, the results that are printed are those in front of the first signature
that raises. -/
theorem filterMap_reachedSignatures (signatures : List Text) :
    (reachedSignatures false signatures).filterMap symbolOf =
      (signatures.takeWhile fun signature => !raises signature).filterMap symbolOf := by
  induction signatures with
  | nil => rfl
  | cons signature signatures ih =>
    cases raised : raises signature with
    | false =>
      rw [reachedSignatures_cons_of_not_raises raised]
      simp [raised, List.filterMap_cons, ih]
    | true =>
      have missing : symbolOf signature = none := by simpa [raises] using raised
      -- The signature that ends the batch prints nothing.
      rw [reachedSignatures_cons_of_raises raised]
      simp [raised, missing]

/-- Of the signatures that raise, a batch reaches all of them if it keeps going, and the first one
otherwise. -/
theorem filter_reachedSignatures (keepGoing : Bool) (signatures : List Text) :
    (reachedSignatures keepGoing signatures).filter raises =
      if keepGoing then signatures.filter raises else (signatures.filter raises).take 1 := by
  induction signatures with
  | nil => cases keepGoing <;> rfl
  | cons signature signatures ih =>
    cases raised : raises signature with
    | false =>
      rw [reachedSignatures_cons_of_not_raises raised]
      simp [raised, ih]
    | true =>
      rw [reachedSignatures_cons_of_raises raised]
      cases keepGoing <;> simp [raised, ih]

/-- Of the notices that signatures are worth, the errors tell of those that raise, one for each. -/
theorem forall_reports_filter (signatures : List Text) :
    List.Forall₂ Notice.Reports
      ((signatures.flatMap signatureNotices).filter (·.level == .error))
      (signatures.filter raises) := by
  induction signatures with
  | nil => exact .nil
  | cons signature signatures ih =>
    have harmless : (mangle signature).notices.filter (·.level == .error) = [] := by
      rw [List.filter_eq_nil_iff]
      intro notice member
      simpa using level_ne_error_of_mem_mangle member
    rw [List.flatMap_cons, List.filter_append, signatureNotices, List.filter_append, harmless,
      List.nil_append]
    -- Only a rejection is worth an error.
    rcases mangle_outcome signature with ⟨symbol, outcome⟩ | ⟨rejection, outcome, _⟩
    · have mangled : raises signature = false := by
        simp [raises, symbolOf, outcome, Except.toOption]
      simpa [rejectionNotices, outcome, mangled] using ih
    · have rejected : raises signature = true := by
        simp [raises, symbolOf, outcome, Except.toOption]
      simpa [rejectionNotices, outcome, rejected, Notice.level] using
        ⟨⟨rejection, rfl, outcome⟩, ih⟩

/-- The switches let through what is at or above their threshold. -/
theorem passes_threshold (verbose quiet keepGoing : Bool) (signatures : List Text)
    (notice : Notice) :
    notice.passes (batchRequest verbose quiet keepGoing signatures).threshold =
      letsThrough verbose quiet notice := by
  cases verbose <;> cases quiet <;> cases level : notice.level <;>
    simp [Notice.passes, batchRequest, Request.threshold, letsThrough, level, Level.rank]

/-- Errors are let through by all switches. -/
theorem filter_letsThrough (verbose quiet : Bool) (notices : List Notice) :
    (notices.filter (letsThrough verbose quiet)).filter (·.level == .error) =
      notices.filter (·.level == .error) := by
  rw [List.filter_filter]
  apply List.filter_congr
  -- No threshold is above that of errors.
  intro notice _
  cases verbose <;> cases quiet <;> cases level : notice.level <;> simp [letsThrough, level]

/-- The run of a request to mangle is the batch, with the notices that its switches let through. -/
theorem batchRequest_run (verbose quiet keepGoing : Bool) (signatures : List Text) :
    (batchRequest verbose quiet keepGoing signatures).run =
      { printed := (reachedSignatures keepGoing signatures).filterMap symbolOf
        notices := ((reachedSignatures keepGoing signatures).flatMap signatureNotices).filter
          (letsThrough verbose quiet)
        outcome := .ok (if signatures.any raises then 1 else 0) } := by
  have batch : (batchRequest verbose quiet keepGoing signatures).command.run =
      mangleAll keepGoing signatures := rfl
  have passes := funext (passes_threshold verbose quiet keepGoing signatures)
  rw [Request.run, batch, mangleAll_eq, passes]

/-- The arguments of a batch are read as its request. -/
theorem readArguments_batchArguments (verbose quiet keepGoing : Bool) {signatures : List Text}
    (nonempty : signatures ≠ []) :
    readArguments (batchArguments verbose quiet keepGoing signatures) =
      .ok (batchRequest verbose quiet keepGoing signatures) := by
  obtain ⟨signature, signatures, rfl⟩ := List.exists_cons_of_ne_nil nonempty
  -- Reading stops at the mark behind the switches, and so does not look at the signatures.
  cases verbose <;> cases quiet <;> cases keepGoing <;> rfl

/-- A batch of signatures on the command line prints the same results and ends with the same status
whatever notices are let through, and keeping going changes only how far it gets. -/
theorem batch_under_switches (verbose quiet : Bool) (signatures : List Text) :
    (batchRequest verbose quiet true signatures).run.printed = signatures.filterMap symbolOf ∧
    (batchRequest verbose quiet false signatures).run.printed =
      (signatures.takeWhile fun signature => !raises signature).filterMap symbolOf ∧
    (batchRequest verbose quiet false signatures).run.printed <+:
      (batchRequest verbose quiet true signatures).run.printed ∧
    ∀ keepGoing,
      (batchRequest verbose quiet keepGoing signatures).run.outcome =
        .ok (if signatures.any raises then 1 else 0) ∧
      (batchRequest verbose quiet keepGoing signatures).run.notices =
        ((reachedSignatures keepGoing signatures).flatMap signatureNotices).filter
          (letsThrough verbose quiet) ∧
      List.Forall₂ Notice.Reports
        ((batchRequest verbose quiet keepGoing signatures).run.notices.filter (·.level == .error))
        (if keepGoing then signatures.filter raises else (signatures.filter raises).take 1) ∧
      (signatures ≠ [] → runArguments (batchArguments verbose quiet keepGoing signatures) =
        .ok (batchRequest verbose quiet keepGoing signatures).run) := by
  have whole : (batchRequest verbose quiet true signatures).run.printed =
      signatures.filterMap symbolOf := by
    rw [batchRequest_run]
    rfl
  have front : (batchRequest verbose quiet false signatures).run.printed =
      (signatures.takeWhile fun signature => !raises signature).filterMap symbolOf := by
    rw [batchRequest_run]
    exact filterMap_reachedSignatures signatures
  refine ⟨whole, front, ?_, fun keepGoing => ⟨?_, ?_, ?_, ?_⟩⟩
  · rw [whole, front]
    exact (List.takeWhile_prefix _).filterMap symbolOf
  · rw [batchRequest_run]
  · rw [batchRequest_run]
  · -- Each of the signatures that raise and are reached is told of by one error.
    rw [batchRequest_run, filter_letsThrough, ← filter_reachedSignatures]
    exact forall_reports_filter _
  · intro nonempty
    rw [runArguments, readArguments_batchArguments verbose quiet keepGoing nonempty]
    rfl

/-- A batch of which the first signature raises prints the others only if it is to keep going, and fails
either way. -/
theorem batch_under_switches_first :
    ["a:b()".toList, "f()".toList] ≠ [] ∧
      runArguments (batchArguments true true true ["a:b()".toList, "f()".toList]) =
        .ok (batchRequest true true true ["a:b()".toList, "f()".toList]).run ∧
      (batchRequest true true true ["a:b()".toList, "f()".toList]).run.printed = ["_Z1fv".toList] ∧
      (batchRequest true true false ["a:b()".toList, "f()".toList]).run.printed = [] ∧
      (batchRequest true true false ["a:b()".toList, "f()".toList]).run.outcome = .ok 1 := by
  have nonempty : ["a:b()".toList, "f()".toList] ≠ [] := List.cons_ne_nil _ _
  have rejected : symbolOf "a:b()".toList = none := by with_unfolding_all rfl
  have mangled : symbolOf "f()".toList = some "_Z1fv".toList := by with_unfolding_all rfl
  have raised : raises "a:b()".toList = true := by rw [raises, rejected, Option.isNone_none]
  obtain ⟨whole, front, -, each⟩ :=
    batch_under_switches true true ["a:b()".toList, "f()".toList]
  refine ⟨nonempty, (each true).2.2.2 nonempty, ?_, ?_, ?_⟩
  · simp only [whole, List.filterMap_cons, rejected, mangled, List.filterMap_nil]
  · rw [front, List.takeWhile_cons, raised]
    rfl
  · rw [(each false).1, List.any_cons, raised, Bool.true_or, if_pos rfl]

end Mangling
