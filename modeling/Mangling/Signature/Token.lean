import Mangling.Fault

/-! The tokens of a declaration signature, and how each is written. -/

namespace Mangling

/-- One token of a signature; the bracketed ones hold their raw content and its pieces. -/
inductive Token where
  | name (content : Text)
  | scope
  | templateArgs (content : Text) (items : List Text)
  | params (content : Text) (items : List Text)
  | const
  | stop
  deriving DecidableEq

/-- The kinds of tokens. -/
inductive TokenKind where
  | name
  | scope
  | templateArgs
  | params
  | const
  | stop
  deriving DecidableEq

/-- The word that marks a member that does not change its object. -/
def constWord : Text := "const".toList

/-- The label of each kind of token. -/
def TokenKind.label : TokenKind → Text
  | .name => "name".toList
  | .scope => "::".toList
  | .templateArgs => "<>".toList
  | .params => "()".toList
  | .const => constWord
  | .stop => "end".toList

/-- Every kind of token. -/
def TokenKind.all : List TokenKind :=
  [.name, .scope, .templateArgs, .params, .const, .stop]

/-- The kind of token that a label names. -/
def TokenKind.ofLabel (label : Text) : Except Fault TokenKind :=
  -- A label outside the catalogue is a fault of its own.
  match TokenKind.all.find? (·.label == label) with
  | some kind => .ok kind
  | none => .error (.unknownLabel .tokenKinds label)

/-- The kind of a token. -/
def Token.kind : Token → TokenKind
  | .name _ => .name
  | .scope => .scope
  | .templateArgs _ _ => .templateArgs
  | .params _ _ => .params
  | .const => .const
  | .stop => .stop

/-- The text that a token holds, empty where it holds none. -/
def Token.content : Token → Text
  | .name content => content
  | .templateArgs content _ => content
  | .params content _ => content
  -- The other kinds say everything by being there.
  | _ => []

/-- The pieces that a token holds, none where it is not bracketed. -/
def Token.items : Token → List Text
  | .templateArgs _ items => items
  | .params _ items => items
  | _ => []

/-- The token of a kind with given content and pieces, of which it keeps what its kind holds. -/
def Token.make (kind : TokenKind) (content : Text) (items : List Text) : Token :=
  match kind with
  | .name => .name content
  | .scope => .scope
  | .templateArgs => .templateArgs content items
  | .params => .params content items
  | .const => .const
  | .stop => .stop

/-- A bracketed token splits its content at every comma, those inside other brackets included. -/
def Token.bracketed (kind : TokenKind) (content : Text) : Except Fault Token :=
  match kind with
  | .templateArgs => .ok (.templateArgs content (commaPieces content))
  | .params => .ok (.params content (commaPieces content))
  -- No other kind has brackets around its content.
  | _ => .error .unbracketed

/-- A name is written as it is, bracketed content between its brackets, the end as nothing, and
every other token as its label. -/
def Token.render : Token → Text
  | .name content => content
  | .scope => TokenKind.scope.label
  | .templateArgs content _ => '<' :: (content ++ ['>'])
  | .params content _ => '(' :: (content ++ [')'])
  | .const => TokenKind.const.label
  | .stop => []

/-- A list of tokens is written one behind the other. -/
def renderTokens (tokens : List Token) : Text :=
  -- Nothing is put between tokens.
  tokens.flatMap Token.render

/-- Every kind of token is found under its label. -/
theorem TokenKind.ofLabel_label (kind : TokenKind) : TokenKind.ofLabel kind.label = .ok kind := by
  cases kind <;> rfl

/-- A token is made of its own parts. -/
theorem Token.make_parts (token : Token) :
    Token.make token.kind token.content token.items = token := by
  cases token <;> rfl

end Mangling
