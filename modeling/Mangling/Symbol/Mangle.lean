import Mangling.Signature.Scan
import Mangling.Symbol.Draft

/-! Mangling a declaration signature into the symbol of its declaration. -/

namespace Mangling

/-- The symbol of a signature; all notices of the scan come before those of the assembly, and a
success gives one more. -/
def mangle (signature : Text) : Report Text :=
  -- The whole signature is scanned before anything is written.
  let scan := scanSignature signature
  match scan.result with
  | .error fault => { outcome := .error fault, notices := scan.notices }
  | .ok tokens =>
    -- The mark of a constant member is written first, although its word comes last.
    let isConst := tokens.any (·.kind == .const)
    let (outcome, draft) := Draft.assemble { symbol := signature, isConst } tokens
    let notices := scan.notices ++ draft.notices
    match outcome with
    | .error fault => { outcome := .error fault, notices }
    | .ok symbol => { outcome := .ok symbol, notices := notices ++ [.mangled signature symbol] }

/-- What became of a signature: its symbol, or why it was rejected. -/
structure Attempt where
  signature : Text
  symbol : Option Text := none
  failure : Option Rejection := none
  deriving DecidableEq

/-- An attempt has succeeded when nothing was rejected. -/
def Attempt.succeeded (attempt : Attempt) : Bool :=
  -- The symbol has no say in this.
  attempt.failure.isNone

/-- The symbol of an attempt, or the fault that stands in its place; a rejection comes first. -/
def Attempt.unwrap (attempt : Attempt) : Except Fault Text :=
  match attempt.failure, attempt.symbol with
  | some rejection, _ => .error (.rejected rejection)
  | none, some symbol => .ok symbol
  | none, none => .error .noOutcome

/-- An attempt to mangle keeps a rejection as its result; any other fault is passed on. -/
def tryMangle (signature : Text) : Report Attempt :=
  -- Only a rejection is the fault of the signature.
  let report := mangle signature
  let outcome := match report.outcome with
    | .ok symbol => .ok { signature, symbol := some symbol }
    | .error (.rejected rejection) => .ok { signature, failure := some rejection }
    | .error fault => .error fault
  { outcome, notices := report.notices }

end Mangling
