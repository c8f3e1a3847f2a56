import Mangling.Encoding.Parameter

/-! The substitution table, which turns what was written before into back references. -/

namespace Mangling

/-- A back reference to an entry; the first has no number, and the numbers start at zero with the
second. -/
def backReference (index : Int) : Text :=
  -- The number is one less than the index, and decimal whatever its size.
  if index = 0 then ['S', '_'] else 'S' :: (signedDecimal (index - 1) ++ ['_'])

/-- The encodings written so far, in order and in full. -/
structure Table where
  entries : List Text := []
  deriving DecidableEq

/-- The number of entries. -/
def Table.size (table : Table) : Nat :=
  table.entries.length

/-- The table with more entries at its end. -/
def Table.extended (table : Table) (encodings : List Text) : Table :=
  { entries := table.entries ++ encodings }

/-- Remembers an encoding under the next index. -/
def Table.add (table : Table) (encoding : Text) : Nat × Table :=
  -- An encoding that is there already is added again.
  (table.size, table.extended [encoding])

/-- The first index of an encoding. -/
def Table.lookup (table : Table) (encoding : Text) : Option Nat :=
  table.entries.idxOf? encoding

/-- The least number of qualifiers to leave out so that the others and the base make an entry. -/
def matchingSplit (qualifiers base entry : Text) : Option Nat :=
  -- Splits are tried from the front, so a full match wins over a partial one.
  (List.range (qualifiers.length + 1)).find? fun split => entry == qualifiers.drop split ++ base

/-- The first entry that is the base under some of its innermost qualifiers, with the number of
qualifiers left out. -/
def Table.find (table : Table) (qualifiers base : Text) : Option (Nat × Nat) :=
  -- Entries are tried in order before splits, so an early partial match wins over a late full one.
  table.entries.zipIdx.findSome? fun (entry, index) =>
    (matchingSplit qualifiers base entry).map fun split => (index, split)

/-- The longest known path of at most so many leading names, with its index. -/
def Table.knownDepth (table : Table) (names : List Text) : Nat → Option (Nat × Nat)
  | 0 => none
  | depth + 1 =>
    -- The deepest path is tried first.
    match table.lookup (scopePath (names.take (depth + 1))) with
    | some index => some (depth + 1, index)
    | none => table.knownDepth names depth

/-- The paths of all lengths from one behind a start up to the whole. -/
def pathsBehind (start : Nat) (names : List Text) : List Text :=
  -- The whole path is the last of them.
  (List.range' (start + 1) (names.length - start)).map fun depth => scopePath (names.take depth)

/-- A nested name refers back to its longest known path, short of itself, and every longer one is
remembered. -/
def Table.encodeScoped (table : Table) (names : List Text) : Text × Table :=
  -- Without a known path the name is written from its first part on.
  let (start, head) :=
    match table.knownDepth names (names.length - 1) with
    | some (depth, index) => (depth, backReference index)
    | none => (0, [])
  ('N' :: (head ++ (names.drop start).flatMap sourceName ++ ['E']),
    table.extended (pathsBehind start names))

/-- The encodings of a base under its qualifiers, from the innermost one outwards. -/
def qualifiedForms : Text → Text → List Text
  | [], _ => []
  -- The qualifier in front is the outermost, so its form comes last.
  | code :: codes, base => qualifiedForms codes base ++ [code :: (codes ++ base)]

/-- A parameter refers back where it can; otherwise it is written and its new parts are remembered.
A fundamental type without qualifiers is never remembered. -/
def Table.encode (table : Table) (parameter : Parameter) : Text × Table :=
  let base := parameter.encodedBase
  let qualifiers := parameter.qualifiers
  -- A fundamental type alone is as short as a reference to it.
  if parameter.isBuiltin && qualifiers.isEmpty then (base, table)
  else
    match table.find qualifiers base with
    | some (index, split) => (qualifiers.take split ++ backReference index, table)
    | none =>
      -- The base comes first into the table, because its qualified forms are built on it.
      let (emitted, table) :=
        if parameter.isScoped then table.encodeScoped parameter.scopeNames
        else if parameter.isBuiltin then (base, table)
        else (base, table.extended [base])
      (qualifiers ++ emitted, table.extended (qualifiedForms qualifiers base))

/-- What was in a table stays in front of what is added. -/
theorem Table.entries_extended (table : Table) (encodings : List Text) :
    (table.extended encodings).entries = table.entries ++ encodings := rfl

end Mangling
