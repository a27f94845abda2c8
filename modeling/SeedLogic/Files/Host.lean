/-!
# The surroundings of the program

The program needs little of its surroundings: it reads whole files, appends lines to an audit
file, writes lines to the error stream and asks for the time. A host provides these in some monad,
so that the program runs in a real system as well as on a described file tree.
-/

namespace SeedLogic

/-- Why a file cannot be used. -/
inductive FileError where
  /-- The system refuses, with a description and a number. -/
  | system (description : String) (code : Nat)
  /-- The path holds a zero character. -/
  | zeroCharacter
deriving DecidableEq, Repr

namespace FileError

/-- Nothing lies at the path. -/
def notFound : FileError := .system "No such file or directory" 2

/-- A file stands where the path needs a directory. -/
def notDirectory : FileError := .system "Not a directory" 20

/-- The path leads to a directory. -/
def isDirectory : FileError := .system "Is a directory" 21

/-- The path, or a name in it, is too long for the system. -/
def nameTooLong : FileError := .system "File name too long" 36

/-- The wording of an error. -/
def message : FileError → String
  | .system description code => s!"{description} (os error {code})"
  | .zeroCharacter => "file name contained an unexpected NUL byte"

end FileError

/-- What the program needs of its surroundings. -/
structure Host (m : Type → Type) where
  /-- The bytes of a file. -/
  readFile : String → m (Except FileError ByteArray)
  /-- Makes sure that a file exists and lines can be appended to it. -/
  openForAppend : String → m (Except FileError Unit)
  /-- Appends a line to a file that has been opened. -/
  appendLine : String → String → m Unit
  /-- Writes a line to the error stream. -/
  writeError : String → m Unit
  /-- The time in milliseconds, if there is a clock. -/
  now : m (Option Nat)

end SeedLogic
