import Mangling.Encoding.Name

/-! Types as trees, with their full encodings and their printed spellings. -/

namespace Mangling

/-- A type, or a scope that holds types. -/
inductive TypeTree where
  /-- A fundamental type. -/
  | builtin (kind : Builtin)
  /-- A class or a scope of its own. -/
  | source (name : Text)
  /-- A class or a scope inside another. -/
  | member (scope : TypeTree) (name : Text)
  /-- A pointer to a type. -/
  | pointer (target : TypeTree)
  /-- A type whose objects do not change. -/
  | const (target : TypeTree)
  deriving DecidableEq

namespace TypeTree

/-- A member stands between the marks of a nested name, and every other type on its own. -/
def enclose (tree : TypeTree) (path : Text) : Text :=
  match tree with
  -- A type on its own has to say where its path ends.
  | .member _ _ => 'N' :: (path ++ ['E'])
  | _ => path

/-- The encoding of a type as the head of a nested name. -/
def path : TypeTree → Text
  | .builtin kind => kind.code
  | .source name => sourceName name
  -- Inside a nested name one part follows the other without marks of its own.
  | .member scope name => scope.path ++ sourceName name
  | .pointer target => 'P' :: target.enclose target.path
  | .const target => 'K' :: target.enclose target.path

/-- The full encoding of a type, in which nothing refers back. -/
def encoding (tree : TypeTree) : Text :=
  -- The outermost type is written on its own.
  tree.enclose tree.path

/-- The printed spelling of a type, with the qualifiers behind what they qualify. -/
def spelling : TypeTree → Text
  | .builtin kind => kind.spelling
  | .source name => name
  | .member scope name => scope.spelling ++ "::".toList ++ name
  | .pointer target => target.spelling ++ "*".toList
  | .const target => target.spelling ++ " const".toList

/-- The members of a scope one inside the other, from the outermost on. -/
def descend (scope : TypeTree) : List Text → List TypeTree
  | [] => []
  -- Each member is the scope of the next one.
  | name :: names => .member scope name :: (TypeTree.member scope name).descend names

/-- The scopes of a path from its first name to the whole. -/
def scopes : List Text → List TypeTree
  | [] => []
  -- The first name stands in no other scope.
  | name :: names => .source name :: (TypeTree.source name).descend names

end TypeTree

end Mangling
