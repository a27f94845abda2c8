import SeedLogic.Config.Basic
import SeedLogic.Session.Basic
import SeedLogic.Settings.Format
import SeedLogic.Tables.Format

/-!
# Loading

Files are read whole and refused when they are too large or no text. A session is opened in
stages: tables, settings, audit log. A stage that fails ends the loading, and nothing has been
written before the audit log is opened.
-/

namespace SeedLogic

/-- What may fail while loading. -/
abbrev LoadM (m : Type → Type) := ExceptT ConfigError m

/-- Where the events of a session go. -/
inductive AuditTarget where
  | nowhere
  | errorStream
  | file (path : String)
deriving DecidableEq, Repr

/-- The file formats of settings. -/
inductive SettingsFormat where
  | toml
  | json
deriving DecidableEq, Repr

namespace Loading

variable {m : Type → Type} [Monad m] (formats : DataFormats)

/-- The largest configuration or settings file, in bytes. -/
def maxSmallFileSize : Nat := 1024 * 1024

/-- The largest file of tables, in bytes. -/
def maxGameDataFileSize : Nat := 16 * 1024 * 1024

/-- The text of a file. -/
def readText (host : Host m) (role : FileRole) (limit : Nat) (path : String) :
    LoadM m String := do
  match checkPath path with
  | .error fault => throw (.invalid (.badPath fault))
  | .ok () =>
    match ← host.readFile path with
    | .error cause => throw (.io role path cause)
    | .ok bytes =>
      if limit < bytes.size then throw (.invalid (.fileTooLarge role))
      else
        match String.fromUTF8? bytes with
        | some text => pure text
        | none => throw (.invalid (.notText role))

/-- The name of the configuration file when nothing else is said. -/
def defaultConfigName : String := "tracker.toml"

/-- The configuration file: the one asked for, else the one that the environment names. -/
def configPath (asked environment : Option String) : Except ConfigError String :=
  match asked, environment with
  | some path, _ => pure path
  | none, some path =>
    if maxPathLength < path.utf8ByteSize then throw (.invalid .configPathTooLong) else pure path
  | none, none => pure defaultConfigName

/-- Loads a configuration. Its paths start at the directory of the file. -/
def loadConfig (host : Host m) (path : String) : LoadM m Config := do
  let content ← readText host .config maxSmallFileSize path
  let config ← Config.parse formats content
  pure { config with baseDir := Path.parent? path }

/-- The tables that a text describes. -/
def gameData? (content : String) : Option GameData :=
  (formats.json content).bind GameData.ofDatum?

/-- Loads the tables and checks their integrity. -/
def loadGameData (host : Host m) (path : String) : LoadM m GameData := do
  let content ← readText host .gameData maxGameDataFileSize path
  match gameData? formats content with
  | none => throw (.parse .gameData)
  | some data =>
    match data.validate with
    | .ok () => pure data
    | .error e => throw (.logic e)

/-- The format of a settings file, by the extension of its name in either case. -/
def settingsFormat (path : String) : Except ConfigError SettingsFormat :=
  match (Path.extension? path).map fun extension => extension.map Char.toLower with
  | some ['t', 'o', 'm', 'l'] => pure .toml
  | some ['j', 's', 'o', 'n'] => pure .json
  | _ => throw (.invalid (.settingsExtension path))

/-- The settings that a text describes. -/
def settings? (format : SettingsFormat) (content : String) : Option Settings :=
  match format with
  | .toml => (formats.toml content).bind Settings.ofDatum?
  | .json => (formats.json content).bind Settings.ofDatum?

/-- Loads settings. -/
def loadSettings (host : Host m) (path : String) : LoadM m Settings := do
  let format ← settingsFormat path
  let content ← readText host .settings maxSmallFileSize path
  match settings? formats format content with
  | none => throw (.parse .settings)
  | some settings => pure settings

/-- Opens the audit log. -/
def openAudit (host : Host m) (config : Config) : LoadM m AuditTarget :=
  match config.auditSink, config.auditPath with
  | .none, _ => pure .nowhere
  | .stderr, _ => pure .errorStream
  | .file, some path => do
    match ← host.openForAppend path with
    | .ok () => pure (.file path)
    | .error cause => throw (.io .audit path cause)
  | .file, none => throw (.invalid .auditPathRequired)

/-- Sends an event to where the events of a session go. -/
def deliver (host : Host m) (target : AuditTarget) (event : AuditEvent) : m Unit := do
  match target with
  | .nowhere => pure ()
  | .errorStream => do host.writeError (formats.print (event.toDatum (← host.now)))
  | .file path => do host.appendLine path (formats.print (event.toDatum (← host.now)))

/-- Opens a session as a configuration says, and delivers its first event. -/
def openSession (host : Host m) (config : Config) : LoadM m (Session × AuditTarget) := do
  let data ← loadGameData formats host config.gameDataPath
  let settings ← match config.settingsPath with
    | some path => loadSettings formats host path
    | none => pure {}
  let target ← openAudit host config
  let (session, event) := Session.start settings data
  liftM (deliver formats host target event)
  match session with
  | .ok session => pure (session, target)
  | .error e => throw (.logic e)

end Loading

end SeedLogic
