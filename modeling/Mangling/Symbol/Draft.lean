import Mangling.Encoding.Substitution
import Mangling.Notice

/-! A draft of a symbol: what has been written, what is pending, and how tokens extend it. -/

namespace Mangling

/-- The mark in front of every mangled name. -/
def symbolMark : Text := ['_', 'Z']

/-- A symbol under construction: the fragments written, the encoded component not yet written, the
scopes written so far from the outermost inwards, the table of substitutions, and the notices
given. -/
structure Draft where
  symbol : Text
  isConst : Bool := false
  isMember : Bool := false
  out : List Text := [symbolMark]
  table : Table := {}
  component : Text := []
  scopes : List Text := []
  notices : List Notice := []
  deriving DecidableEq

/-- Writes fragments. -/
def Draft.emit (draft : Draft) (fragments : List Text) : Draft :=
  { draft with out := draft.out ++ fragments }

/-- The fragments as one text. -/
def Draft.result (draft : Draft) : Text :=
  -- Empty fragments leave no trace in the symbol.
  draft.out.flatten

/-- Lengthens the pending component. -/
def Draft.append (draft : Draft) (text : Text) : Draft :=
  { draft with component := draft.component ++ text }

/-- The first scope of a symbol opens its nested name, with a mark for a member that does not change
its object; it opens nothing once more than the first mark is written. -/
def Draft.openNested (draft : Draft) : Draft :=
  -- Every scope asks for the nested name, and only the first one opens it.
  if draft.isMember then draft
  else
    let member := { draft with isMember := true }
    if draft.out = [symbolMark] then
      member.emit (if draft.isConst then [['N'], ['K']] else [['N']])
    else member

/-- Writes the pending component, even an empty one, and hands it over. -/
def Draft.flush (draft : Draft) : Text × Draft :=
  -- The caller decides what the component was.
  (draft.component, { draft.emit [draft.component] with component := [] })

/-- The scopes so far as one encoding: the outermost alone, or the nested name they make. -/
def scopeEncoding : List Text → Text
  -- This agrees with the path that a parameter inside the scope will look up.
  | [scope] => scope
  | scopes => 'N' :: (scopes.flatten ++ ['E'])

/-- Remembers a finished scope, so that parameters can refer back to it. -/
def Draft.addScope (draft : Draft) (component : Text) : Draft :=
  -- The scope is remembered with all scopes around it.
  let scopes := draft.scopes ++ [component]
  { draft with scopes, table := draft.table.extended [scopeEncoding scopes] }

/-- Writes a parameter through the table. -/
def Draft.writeParameter (draft : Draft) (parameter : Parameter) : Draft :=
  -- The table is shared by all parameters of a symbol.
  let (encoding, table) := draft.table.encode parameter
  { draft with table }.emit [encoding]

/-- Gives notice of a parameter without a type. -/
def Draft.noteEmpty (draft : Draft) : Draft :=
  { draft with notices := draft.notices ++ [.emptyParameter draft.symbol] }

/-- Template arguments are types without qualifiers, or names, between two marks. -/
def templateArgs (items : List Text) : Text :=
  -- An empty argument leaves nothing between the marks.
  'I' :: (items.flatMap (fun item => plainType (trimBlanks item)) ++ ['E'])

/-- Writes parameters one after the other, passing over those without a type. -/
def Draft.writeItems (draft : Draft) : List Text → Except Fault Unit × Draft
  | [] => (.ok (), draft)
  | item :: items =>
    match Parameter.ofSpelling item with
    | .error fault => (.error fault, draft)
    | .ok parameter =>
      -- A parameter without a type is noticed and leaves nothing behind.
      if parameter.isEmpty then draft.noteEmpty.writeItems items
      else (draft.writeParameter parameter).writeItems items

/-- A blank parameter list is written as the type without values. -/
def Draft.writeParams (draft : Draft) (content : Text) (items : List Text) :
    Except Fault Unit × Draft :=
  -- The content decides, not the items, of which even a blank list has one.
  if (trimBlanks content).isEmpty then (.ok (), draft.emit [Builtin.void.code])
  else draft.writeItems items

/-- The mark that closes a nested name, if one was opened. -/
def Draft.close (draft : Draft) : Draft :=
  -- What was opened for a member is closed for it.
  if draft.isMember then draft.emit [['E']] else draft

/-- A separator opens the nested name and finishes the component in front of it as a scope. -/
def Draft.enterScope (draft : Draft) : Draft :=
  -- A separator without a name in front opens the nested name and leaves no scope.
  let (component, draft) := draft.openNested.flush
  if component.isEmpty then draft else draft.addScope component

/-- The symbol that tokens spell: it ends at the first parameter list or end token, and a plain name
without either scope or parameters stays as it is. -/
def Draft.assemble (draft : Draft) : List Token → Except Fault Text × Draft
  | [] => (.error .unfinished, draft)
  | .name content :: tokens => (draft.append (sourceName content)).assemble tokens
  | .templateArgs _ items :: tokens => (draft.append (templateArgs items)).assemble tokens
  | .scope :: tokens => draft.enterScope.assemble tokens
  -- The mark of a constant member has been written with the opening of the nested name.
  | .const :: tokens => draft.assemble tokens
  | .params content items :: _ =>
    match draft.flush.2.close.writeParams content items with
    | (.ok (), draft) => (.ok draft.result, draft)
    | (.error fault, draft) => (.error fault, draft)
  | .stop :: _ =>
    -- A variable or function without either is known by its name alone.
    let draft := draft.flush.2
    if draft.isMember then (.ok draft.close.result, draft.close) else (.ok draft.symbol, draft)

end Mangling
