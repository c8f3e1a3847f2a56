import Mangling.Notice
import Mangling.Symbol.Reader

/-! Demangling a symbol into a readable declaration. -/

namespace Mangling

/-- What is printed for a symbol that cannot be read. -/
def noType : Text := "<no type>".toList

/-- The printed parameter list; no types mean no list, and the type without values alone means an
empty one. -/
def printedTypes (types : List TypeTree) : Text :=
  -- A declaration without types is no function.
  if types.isEmpty then []
  else if types = [.builtin .void] then "()".toList
  else '(' :: ((", ".toList).intercalate (types.map TypeTree.spelling) ++ [')'])

/-- The printed form of a declaration. -/
def Declaration.spelling (declaration : Declaration) : Text :=
  -- Constness stands behind the parameter list, whether or not there is one.
  ("::".toList).intercalate declaration.names ++ printedTypes declaration.types ++
    (if declaration.isConst then " const".toList else [])

/-- The printed declaration of a symbol, whose lengths count bytes and which ends at the first null
character; what cannot be read gives a notice instead. -/
def demangle (symbol : Text) : Text × List Notice :=
  -- The notice holds the symbol whole, what comes behind the null character included.
  match readSymbol Char.utf8Size (symbol.takeWhile (· != '\x00')) with
  | some declaration => (declaration.spelling, [])
  | none => (noType, [.unreadable symbol])

end Mangling
