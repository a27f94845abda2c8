import SeedLogic.CommandLine.Run
import Std.Time.DateTime.Timestamp

/-!
# The program

The real surroundings of the program: the file system, the error stream and the clock.
-/

namespace SeedLogic

/-- The description of a failed system call. -/
def FileError.ofSystem (e : IO.Error) : FileError :=
  match e with
  | .alreadyExists _ code details | .otherError code details | .resourceBusy code details
  | .resourceVanished code details | .unsupportedOperation code details
  | .hardwareFault code details | .unsatisfiedConstraints code details
  | .illegalOperation code details | .protocolError code details | .timeExpired code details
  | .interrupted _ code details | .noFileOrDirectory _ code details
  | .invalidArgument _ code details | .permissionDenied _ code details
  | .resourceExhausted _ code details | .inappropriateType _ code details
  | .noSuchThing _ code details => .system details code.toNat
  | .unexpectedEof => .system "unexpected end of file" 0
  | .userError details => .system details 0

/-- A file operation whose failure is described. -/
def describing {α : Type} (path : String) (action : IO α) : IO (Except FileError α) := do
  if path.toList.contains (Char.ofNat 0) then return .error .zeroCharacter
  if path.isEmpty then return .error .notFound
  try
    return .ok (← action)
  catch e => return .error (.ofSystem e)

/-- The host that acts on the real system. -/
def systemHost : Host IO where
  readFile path := describing path do
    let handle ← IO.FS.Handle.mk path .read
    handle.readBinToEnd
  openForAppend path := describing path do
    discard (IO.FS.Handle.mk path .append)
  appendLine path line := do
    try
      let handle ← IO.FS.Handle.mk path .append
      handle.putStrLn line
    catch _ => pure ()
  writeError line := do
    try
      IO.eprintln line
    catch _ => pure ()
  now := do
    let time ← Std.Time.Timestamp.now
    return some time.toMillisecondsSinceUnixEpoch.toInt.toNat

end SeedLogic

/-- Runs the program on the arguments of the process. -/
def main (arguments : List String) : IO UInt32 := do
  let environment ← IO.getEnv "LOGIC_TRACKER_CONFIG"
  let outcome ← SeedLogic.CommandLine.run .standard SeedLogic.systemHost environment arguments
  IO.print outcome.output
  return UInt32.ofNat outcome.exitCode
