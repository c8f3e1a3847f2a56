import Mangling.Text.Quoted

/-! What can go wrong, as causes; the wording of each is in one place. -/

namespace Mangling

/-- Why a signature is rejected. -/
inductive Offence where
  /-- A colon that is not doubled. -/
  | malformedScope
  /-- An opening parenthesis without a closing one. -/
  | unmatchedParen
  /-- Text behind the parameter list that is no member qualifier. -/
  | unexpectedTrailing
  /-- A template argument list without its end. -/
  | unterminatedTemplate
  /-- A template argument list without a name in front. -/
  | missingTemplateName
  deriving DecidableEq

/-- A rejected signature, with the character at fault, or no character at the end of the text. -/
structure Rejection where
  offence : Offence
  char : Text
  symbol : Text
  deriving DecidableEq

/-- The closed sets of labels that are looked up by their text. -/
inductive Catalogue where
  | tokenKinds
  | offences
  | qualifiers
  deriving DecidableEq

/-- The causes for which an operation has no result. -/
inductive Fault where
  /-- The signature is rejected. -/
  | rejected (rejection : Rejection)
  /-- Fewer characters were left than were to be read. -/
  | shortRead (size : Int) (got : Text)
  /-- A look-ahead was to start in front of the text. -/
  | negativeSeek (target : Int)
  /-- Text was left unread. -/
  | leftover (unread : Text)
  /-- A label is not in its catalogue. -/
  | unknownLabel (catalogue : Catalogue) (label : Text)
  /-- Bracketed content was given to a kind of token that has no brackets. -/
  | unbracketed
  /-- The tokens ran out before the one that ends a declaration. -/
  | unfinished
  /-- Neither a symbol nor a rejection is there to be returned. -/
  | noOutcome
  deriving DecidableEq

/-- The label of each offence. -/
def Offence.label : Offence → Text
  | .malformedScope => "malformed_scope".toList
  | .unmatchedParen => "unmatched_paren".toList
  | .unexpectedTrailing => "unexpected_trailing".toList
  | .unterminatedTemplate => "unterminated_template".toList
  | .missingTemplateName => "missing_template_name".toList

/-- Every offence. -/
def Offence.all : List Offence :=
  [.malformedScope, .unmatchedParen, .unexpectedTrailing, .unterminatedTemplate,
    .missingTemplateName]

/-- The offence that a label names. -/
def Offence.ofLabel (label : Text) : Except Fault Offence :=
  -- A label outside the catalogue is a fault of its own.
  match Offence.all.find? (·.label == label) with
  | some offence => .ok offence
  | none => .error (.unknownLabel .offences label)

/-- A rejection names its character and the whole signature, or says that the signature ended. -/
def Rejection.message (rejection : Rejection) : Text :=
  -- No character at fault means that the signature ended too early.
  if rejection.char.isEmpty then
    "unexpected end of symbol '".toList ++ rejection.symbol ++ [singleQuote]
  else
    "unexpected character '".toList ++ rejection.char ++ "' in symbol '".toList ++
      rejection.symbol ++ [singleQuote]

/-- The title under which a catalogue is known. -/
def Catalogue.title : Catalogue → Text
  | .tokenKinds => "Token.Kind".toList
  | .offences => "MangleError.Kind".toList
  | .qualifiers => "CxxQualifier".toList

/-- The wording of every fault. -/
def Fault.message : Fault → Text
  | .rejected rejection => rejection.message
  | .shortRead size got =>
    "Unable to read ".toList ++ signedDecimal size ++ " chars; got ".toList ++ quoted got
  | .negativeSeek target => "Negative seek position ".toList ++ signedDecimal target
  | .leftover unread => "Unable to scan full input, leftover chars: ".toList ++ quoted unread
  | .unknownLabel catalogue label =>
    quoted label ++ " is not a valid ".toList ++ catalogue.title
  -- Two faults are asserted without a word.
  | .unbracketed => []
  | .unfinished => "Token stream did not end with END".toList
  | .noOutcome => []

/-- Every offence is found under its label. -/
theorem Offence.ofLabel_label (offence : Offence) :
    Offence.ofLabel offence.label = .ok offence := by
  cases offence <;> rfl

end Mangling
