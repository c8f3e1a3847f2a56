import Mangling.CommandLine.Session

/-! The command line. -/

namespace Mangling

/-- How the command line is called. -/
def usage : String :=
  "usage: mangling [-h] [-v] [-q] mangle [-h] [-k] SIGNATURE...\n" ++
  "       mangling [-h] [-v] [-q] demangle [-h] SYMBOL...\n"

/-- Prints what a session prints, and its notices apart from that. -/
def Session.print (session : Session) : IO UInt32 := do
  for notice in session.notices do
    IO.eprintln (String.ofList notice.message)
  IO.print (String.ofList session.text)
  match session.outcome with
  | .ok status => return status.toUInt32
  | .error fault =>
    IO.eprintln (String.ofList fault.message)
    return 1

end Mangling

/-- Runs a session on the arguments. -/
def main (arguments : List String) : IO UInt32 := do
  match Mangling.runArguments (arguments.map String.toList) with
  | .ok session => session.print
  | .error .help =>
    IO.print Mangling.usage
    return 0
  | .error .usage =>
    IO.eprint Mangling.usage
    return 2
