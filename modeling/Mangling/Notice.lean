import Mangling.Fault

/-! Notices: what is worth telling beside a result, each at a level. -/

namespace Mangling

/-- How much a notice matters. -/
inductive Level where
  | debug
  | warning
  | error
  deriving DecidableEq

/-- The levels in order. -/
def Level.rank : Level → Nat
  | .debug => 0
  | .warning => 1
  | .error => 2

/-- The label of each level. -/
def Level.label : Level → Text
  | .debug => "DEBUG".toList
  | .warning => "WARNING".toList
  | .error => "ERROR".toList

/-- What is told beside a result. -/
inductive Notice where
  /-- A space stood outside brackets. -/
  | whitespace (symbol : Text)
  /-- A parameter had no type. -/
  | emptyParameter (symbol : Text)
  /-- A signature was mangled. -/
  | mangled (signature symbol : Text)
  /-- A symbol is not of the grammar. -/
  | unreadable (symbol : Text)
  /-- A signature was rejected. -/
  | rejected (rejection : Rejection)
  deriving DecidableEq

/-- The level of each kind of notice. -/
def Notice.level : Notice → Level
  | .whitespace _ => .warning
  | .emptyParameter _ => .warning
  | .mangled _ _ => .debug
  | .unreadable _ => .debug
  | .rejected _ => .error

/-- The wording of every notice. -/
def Notice.message : Notice → Text
  | .whitespace symbol => "unexpected whitespace in symbol '".toList ++ symbol ++ [singleQuote]
  | .emptyParameter symbol => "empty parameter in symbol '".toList ++ symbol ++ [singleQuote]
  | .mangled signature symbol =>
    "mangled '".toList ++ signature ++ "' as '".toList ++ symbol ++ [singleQuote]
  | .unreadable symbol =>
    "unable to demangle '".toList ++ symbol ++ "': ".toList ++ quotedBytes symbol
  -- A rejection is worded as the fault that it is.
  | .rejected rejection => rejection.message

/-- A notice passes a threshold at or below its level. -/
def Notice.passes (threshold : Level) (notice : Notice) : Bool :=
  -- A lower threshold lets more through.
  threshold.rank ≤ notice.level.rank

/-- An outcome together with the notices given on the way to it. -/
structure Report (α : Type) where
  outcome : Except Fault α
  notices : List Notice

end Mangling
