import SeedLogic.Text.Cut

/-!
# Paths

A path is a text whose components are separated by slashes. Repeated slashes count once, and a
single dot counts only at the start of a relative path.
-/

namespace SeedLogic.Path

/-- A component of a path. -/
inductive Component where
  | root
  | current
  | parent
  | name (text : List Char)
deriving DecidableEq, Repr

/-- The text of a component. -/
def Component.text : Component → List Char
  | .root => ['/']
  | .current => ['.']
  | .parent => ['.', '.']
  | .name text => text

/-- Whether a path starts at the root. -/
def isAbsolute (path : String) : Bool :=
  path.toList.head? = some '/'

/-- The component of a piece between slashes, if it counts. -/
def innerComponent? (piece : List Char) : Option Component :=
  if piece.isEmpty || piece = ['.'] then none
  else if piece = ['.', '.'] then some .parent
  else some (.name piece)

/-- The components of a path. -/
def components (path : String) : List Component :=
  match path.toList with
  | [] => []
  | '/' :: rest => .root :: (Text.pieces '/' rest).filterMap innerComponent?
  | cs =>
    match Text.pieces '/' cs with
    | ['.'] :: rest => .current :: rest.filterMap innerComponent?
    | ps => ps.filterMap innerComponent?

/-- The pieces of a path, last first, without those at its end that do not count. The first piece
of the path always counts. -/
def dropIdle : List (List Char) → List (List Char)
  | piece :: first :: rest =>
    if piece.isEmpty || piece = ['.'] then dropIdle (first :: rest) else piece :: first :: rest
  | ps => ps

/-- The path without its last component; a root and an empty path have none. -/
def parent? (path : String) : Option String :=
  match dropIdle (Text.pieces '/' path.toList).reverse with
  | [] => none
  | [[]] => none
  | [_] => some ""
  | _ :: above =>
    match dropIdle above with
    | [[]] => some "/"
    | above => some (.ofList (['/'].intercalate above.reverse))

/-- The path seen from a base directory. An absolute path stays as it is. -/
def join (base path : String) : String :=
  if isAbsolute path || base.isEmpty then path
  else if base.toList.getLast? = some '/' then base ++ path
  else base ++ "/" ++ path

/-- The last component of a path, if it is a name. -/
def fileName? (path : String) : Option (List Char) :=
  match (components path).getLast? with
  | some (.name text) => some text
  | _ => none

/-- The part of the file name after its last dot. A dot at the start of the name does not
count. -/
def extension? (path : String) : Option (List Char) := do
  let name ← fileName? path
  let (stem, extension) ← Text.cutLast? ['.'] name
  if stem.isEmpty then none else some extension

end SeedLogic.Path
