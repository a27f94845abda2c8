import SeedLogic.Files.Host
import SeedLogic.Files.Path
import SeedLogic.Text.Bytes

/-!
# A described file tree

A file tree lists files by their names on the way from the root; the directories are those on the
way to a file or to the working directory. Looking up a path walks through the tree piece by piece,
from the root for an absolute path and from the working directory for any other.
-/

namespace SeedLogic

/-- The files of a system and the working directory. Both are known by the names on the way to them
from the root. -/
structure FileTree where
  files : List (List String × ByteArray) := []
  workingDirectory : List String := []

namespace FileTree

/-- The content of the file under the given names. -/
def file? (tree : FileTree) (names : List String) : Option ByteArray :=
  tree.files.lookup names

/-- Whether the names lead to a directory: the working directory or one on the way to it, or one on
the way to a file. -/
def isDirectory (tree : FileTree) (names : List String) : Bool :=
  names.isPrefixOf tree.workingDirectory || tree.files.any fun entry =>
    names.length < entry.1.length && names.isPrefixOf entry.1

/-- The tree with a file written under the given names. -/
def write (tree : FileTree) (names : List String) (content : ByteArray) : FileTree :=
  if (tree.file? names).isSome then
    { tree with
      files := tree.files.map fun entry => if entry.1 = names then (names, content) else entry }
  else { tree with files := tree.files ++ [(names, content)] }

/-- The longest name that a directory can hold, in bytes. -/
def maxNameLength : Nat := 255

/-- A path must be shorter than this, in bytes. -/
def pathLimit : Nat := 4096

/-- One step of a walk, which is at the given names. The parent of the root is the root. Names that
no directory holds are only noticed where the walk goes on behind them. -/
def enter (tree : FileTree) (names : List String) (piece : List Char) :
    Except FileError (List String) :=
  if !tree.isDirectory names then
    throw (if (tree.file? names).isSome then .notDirectory else .notFound)
  else if piece.isEmpty || piece = ['.'] then pure names
  else if piece = ['.', '.'] then pure names.dropLast
  else if maxNameLength < Text.byteLength piece then throw .nameTooLong
  else pure (names ++ [.ofList piece])

/-- Refuses a path that leads nowhere in any tree. -/
def checkPath (path : String) : Except FileError Unit :=
  if path.toList.contains (Char.ofNat 0) then throw .zeroCharacter
  else if path.isEmpty then throw .notFound
  else if pathLimit ≤ path.utf8ByteSize then throw .nameTooLong
  else pure ()

/-- The names to which a path leads. Nothing need be there, but everything before the last piece of
the path is. -/
def place (tree : FileTree) (path : String) : Except FileError (List String) := do
  checkPath path
  (Text.pieces '/' path.toList).foldlM tree.enter
    (if Path.isAbsolute path then [] else tree.workingDirectory)

/-- The content of the file to which a path leads. -/
def read (tree : FileTree) (path : String) : Except FileError ByteArray := do
  let names ← tree.place path
  match tree.file? names with
  | some content => pure content
  | none => throw (if tree.isDirectory names then .isDirectory else .notFound)

/-- The file to which lines can be appended under a path. A directory, and a path that ends with a
slash, name no such file. -/
def appendTarget (tree : FileTree) (path : String) : Except FileError (List String) := do
  checkPath path
  let reversed := path.toList.reverse
  if reversed.head? = some '/' then
    match reversed.dropWhile (· = '/') with
    | [] => throw .isDirectory
    | above => do
      discard (tree.place (.ofList above.reverse))
      throw .isDirectory
  let names ← tree.place path
  if tree.isDirectory names then throw .isDirectory else pure names

/-- The tree in which the file to which a path leads exists. -/
def touch (tree : FileTree) (path : String) : Except FileError FileTree := do
  let names ← tree.appendTarget path
  if (tree.file? names).isSome then pure tree else pure (tree.write names .empty)

/-- The tree in which a line has been appended to a file. -/
def appendLine (tree : FileTree) (path line : String) : FileTree :=
  match tree.appendTarget path with
  | .ok names =>
    tree.write names (((tree.file? names).getD .empty) ++ (line ++ "\n").toUTF8)
  | .error _ => tree

end FileTree

/-- A file tree together with the lines written to the error stream, latest first. -/
structure FileWorld where
  tree : FileTree
  errors : List String := []

namespace FileWorld

/-- The host that acts on a file tree and has no clock. -/
def host : Host (StateM FileWorld) where
  readFile path := do pure ((← get).tree.read path)
  openForAppend path := do
    let world ← get
    match world.tree.touch path with
    | .ok tree => do
      set { world with tree }
      pure (.ok ())
    | .error e => pure (.error e)
  appendLine path line := modify fun world => { world with tree := world.tree.appendLine path line }
  writeError line := modify fun world => { world with errors := line :: world.errors }
  now := pure none

end FileWorld

end SeedLogic
