import Mangling.Notice
import Mangling.Text.DecimalDigit

/-! Reading the arguments of the command line: switches, a command, and what it works on. -/

namespace Mangling

/-- The switches of the command line. -/
inductive Switch where
  | help
  | verbose
  | quiet
  | keepGoing
  deriving DecidableEq

/-- A switch with its letter and its name. -/
structure Flag where
  switch : Switch
  letter : Char
  name : Text

/-- What stands in front of a letter. -/
def dash : Char := '-'

/-- The argument behind which nothing is a switch. -/
def endOfSwitches : Text := [dash, dash]

/-- The written forms of a switch: a dash and its letter, or two dashes and its name. -/
def Flag.forms (flag : Flag) : List Text :=
  [[dash, flag.letter], dash :: dash :: flag.name]

/-- The switch that asks for help is understood everywhere. -/
def helpFlag : Flag := { switch := .help, letter := 'h', name := "help".toList }

/-- The switches in front of the command. -/
def mainFlags : List Flag :=
  [helpFlag,
    { switch := .verbose, letter := 'v', name := "verbose".toList },
    { switch := .quiet, letter := 'q', name := "quiet".toList }]

/-- The switches of mangling. -/
def mangleFlags : List Flag :=
  [helpFlag, { switch := .keepGoing, letter := 'k', name := "keep-going".toList }]

/-- The switches of demangling. -/
def demangleFlags : List Flag :=
  [helpFlag]

/-- How an argument is understood. -/
inductive Word where
  /-- It stands for itself. -/
  | operand
  /-- It is one switch or several; behind an unknown letter the rest is excess. -/
  | switches (run : List Switch) (excess : Bool)
  /-- It looks like a switch and is none. -/
  | excess
  /-- It gives a switch a value, and no switch takes one. -/
  | faulty
  /-- It shortens the names of several switches. -/
  | ambiguous
  deriving DecidableEq

/-- Behind the first letter of joined switches, every further letter is a switch too; neither a
dash nor a value may follow, and an unknown letter ends the run. -/
def joinedSwitches (flags : List Flag) (run : List Switch) : Text → Word
  | [] => .switches run false
  | letter :: rest =>
    -- The letter read last takes no value, so what looks like one is refused.
    if letter == dash || letter == '=' then .faulty
    else
      match flags.find? (·.letter == letter) with
      | some flag => joinedSwitches flags (run ++ [flag.switch]) rest
      | none => .switches run true

/-- A negative number has digits, or a point with digits behind it; one line break may follow. -/
def isNegativeNumber (text : Text) : Bool :=
  match text with
  | '-' :: rest =>
    -- One line break at the end does not count.
    let body := if rest.getLast? == some '\n' then rest.dropLast else rest
    match body.dropWhile isDecimalDigit with
    | [] => !body.isEmpty
    | '.' :: fraction => !fraction.isEmpty && fraction.all isDecimalDigit
    | _ => false
  | _ => false

/-- What looks like a switch and is none stands for itself if it is a negative number or has a
space in it. -/
def unknownWord (text : Text) : Word :=
  -- No switch looks like a number or holds a space.
  if isNegativeNumber text || text.contains ' ' then .operand else .excess

/-- A name behind two dashes may be shortened as long as it fits one switch only. -/
def namedWord (flags : List Flag) (text : Text) : Word :=
  -- A value begins at the first equals sign.
  let shortened := text.takeWhile (· != '=')
  let valued := text.contains '='
  match flags.filter fun flag => flag.forms.any fun form => shortened.isPrefixOf form with
  | [] => unknownWord text
  | [flag] => if valued then .faulty else .switches [flag.switch] false
  | _ => .ambiguous

/-- A letter behind one dash may have further letters joined to it. -/
def letteredWord (flags : List Flag) (letter : Char) (rest text : Text) : Word :=
  -- The letter decides, and what follows it is read as more letters.
  match flags.find? (·.letter == letter) with
  | some flag => joinedSwitches flags [flag.switch] rest
  | none => unknownWord text

/-- How an argument is understood where these switches are known. -/
def classify (flags : List Flag) (text : Text) : Word :=
  match text with
  | '-' :: letter :: rest =>
    match flags.find? (·.forms.contains text) with
    | some flag => .switches [flag.switch] false
    | none =>
      -- A written form with a value is refused before shorter forms are tried.
      let named := text.takeWhile (· != '=')
      if text.contains '=' && flags.any (·.forms.contains named) then .faulty
      else if letter == dash then namedWord flags text
      else letteredWord flags letter rest text
  -- A lone dash, and what does not begin with one, is no switch.
  | _ => .operand

/-- Why the arguments lead to no work. -/
inductive Refusal where
  /-- Help was asked for. -/
  | help
  /-- The arguments are not understood. -/
  | usage
  deriving DecidableEq

/-- Asking for help is no failure. -/
def Refusal.status : Refusal → Nat
  | .help => 0
  | .usage => 2

/-- Whether an argument in front of the end of the switches is ambiguous, which is found before
anything else is done. -/
def anyAmbiguous (flags : List Flag) (arguments : List Text) : Bool :=
  -- Behind the end of the switches nothing is looked at.
  (arguments.takeWhile (· != endOfSwitches)).any fun text => classify flags text == .ambiguous

/-- How far the operands of a command have been read. -/
inductive Phase where
  /-- None has been met. -/
  | before
  /-- The last argument was one. -/
  | within
  /-- A switch has followed them. -/
  | behind
  deriving DecidableEq

/-- The arguments of a command as read so far. -/
structure Operands where
  phase : Phase := .before
  operands : List Text := []
  switches : List Switch := []
  excess : Bool := false
  deriving DecidableEq

/-- Operands all stand next to each other; later ones are excess. -/
def Operands.take (read : Operands) (texts : List Text) : Operands :=
  match read.phase with
  -- A second run is refused as a whole, but only once everything has been read.
  | .behind => { read with excess := true }
  | _ => { read with phase := .within, operands := read.operands ++ texts }

/-- A switch, known or not, ends a run of operands. -/
def Operands.interrupt (read : Operands) (run : List Switch) (excess : Bool) : Operands :=
  { read with
    -- Switches in front of the operands do no harm.
    phase := if read.phase = .within then .behind else read.phase
    switches := read.switches ++ run
    excess := read.excess || excess }

/-- Reads the arguments of a command; help is given as soon as it is asked for. -/
def Operands.read (flags : List Flag) (read : Operands) : List Text → Except Refusal Operands
  | [] => .ok read
  | text :: rest =>
    -- All that follows is operands, and the mark itself is none.
    if text = endOfSwitches then .ok (read.take rest)
    else
      match classify flags text with
      | .operand => (read.take [text]).read flags rest
      | .excess => (read.interrupt [] true).read flags rest
      | .switches run excess =>
        if run.contains .help then .error .help else (read.interrupt run excess).read flags rest
      | .faulty => .error .usage
      | .ambiguous => .error .usage

/-- A command needs at least one operand and takes no excess. -/
def readOperands (flags : List Flag) (arguments : List Text) : Except Refusal Operands :=
  -- Help asked for on the way wins over what is missing or too much.
  if anyAmbiguous flags arguments then .error .usage
  else
    match Operands.read flags {} arguments with
    | .error refusal => .error refusal
    | .ok read => if read.excess || read.operands.isEmpty then .error .usage else .ok read

/-- What is to be done. -/
inductive Command where
  | mangle (keepGoing : Bool) (signatures : List Text)
  | demangle (symbols : List Text)
  deriving DecidableEq

/-- A command with the switches in front of it. -/
structure Request where
  verbose : Bool
  quiet : Bool
  command : Command
  deriving DecidableEq

/-- Everything behind the name of a command belongs to it. -/
def readCommand (name : Text) (arguments : List Text) : Except Refusal Command :=
  -- Each command knows its own switches, and not those in front of it.
  if name = "mangle".toList then
    (readOperands mangleFlags arguments).map fun read =>
      .mangle (read.switches.contains .keepGoing) read.operands
  else if name = "demangle".toList then
    (readOperands demangleFlags arguments).map fun read => .demangle read.operands
  else .error .usage

/-- Reads the switches in front of the command and then the command; excess in front of it is
refused last. -/
def readSwitches (switches : List Switch) (excess : Bool) : List Text → Except Refusal Request
  | [] => .error .usage
  | text :: rest =>
    -- The mark would be taken for the name of a command, and there is none of that name.
    if text = endOfSwitches then .error .usage
    else
      match classify mainFlags text with
      | .operand =>
        match readCommand text rest with
        | .error refusal => .error refusal
        | .ok command =>
          if excess then .error .usage
          else .ok
            { verbose := switches.contains .verbose, quiet := switches.contains .quiet, command }
      | .excess => readSwitches switches true rest
      | .switches run more =>
        if run.contains .help then .error .help
        else readSwitches (switches ++ run) (excess || more) rest
      | .faulty => .error .usage
      | .ambiguous => .error .usage

/-- The request that arguments make. -/
def readArguments (arguments : List Text) : Except Refusal Request :=
  -- The arguments of the command are looked at too.
  if anyAmbiguous mainFlags arguments then .error .usage else readSwitches [] false arguments

end Mangling
