import Mangling.CommandLine.Arguments
import Mangling.Symbol.Demangle
import Mangling.Symbol.Mangle

/-! Sessions of the command line: what is printed, what is noticed, and how they end. -/

namespace Mangling

/-- What a session prints, line by line, the notices it gives, and its exit status. -/
structure Session where
  printed : List Text := []
  notices : List Notice := []
  outcome : Except Fault Nat := .ok 0

/-- A session in which something was printed and noticed before. -/
def Session.behind (printed : List Text) (notices : List Notice) (session : Session) : Session :=
  { session with
    printed := printed ++ session.printed
    notices := notices ++ session.notices }

/-- A session that cannot succeed any more. -/
def Session.failed (session : Session) : Session :=
  -- A fault stays a fault.
  { session with outcome := session.outcome.map fun _ => 1 }

/-- The printed text, with a line break behind every line. -/
def Session.text (session : Session) : Text :=
  -- A line may hold line breaks of its own.
  session.printed.flatMap (· ++ ['\n'])

/-- Mangles signatures in order; a rejected one fails the session, and ends it unless it is to keep
going. -/
def mangleAll (keepGoing : Bool) : List Text → Session
  | [] => {}
  | signature :: signatures =>
    -- The notices of a signature come before those of the next one.
    let report := tryMangle signature
    match report.outcome.bind Attempt.unwrap with
    | .ok symbol => (mangleAll keepGoing signatures).behind [symbol] report.notices
    | .error (.rejected rejection) =>
      let rest := if keepGoing then mangleAll keepGoing signatures else {}
      (rest.behind [] (report.notices ++ [.rejected rejection])).failed
    | .error fault => { notices := report.notices, outcome := .error fault }

/-- Demangles symbols in order, which always succeeds. -/
def demangleAll : List Text → Session
  | [] => {}
  | symbol :: symbols =>
    -- What cannot be read is printed as such and ends nothing.
    let (printed, notices) := demangle symbol
    (demangleAll symbols).behind [printed] notices

/-- The least level of the notices that are let through; asking for more wins over asking for
less. -/
def Request.threshold (request : Request) : Level :=
  -- Without either switch, warnings and errors are let through.
  if request.verbose then .debug else if request.quiet then .error else .warning

/-- The work of a command, with every notice. -/
def Command.run : Command → Session
  | .mangle keepGoing signatures => mangleAll keepGoing signatures
  | .demangle symbols => demangleAll symbols

/-- The work of a request, with the notices that are let through. -/
def Request.run (request : Request) : Session :=
  -- Neither what is printed nor the status depends on the threshold.
  let session := request.command.run
  { session with notices := session.notices.filter (·.passes request.threshold) }

/-- The session that arguments lead to. -/
def runArguments (arguments : List Text) : Except Refusal Session :=
  (readArguments arguments).map Request.run

end Mangling
