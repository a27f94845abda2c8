import SeedLogic.Data.Decode
import SeedLogic.Data.Formats
import SeedLogic.Files.Host
import SeedLogic.Files.Path
import SeedLogic.LogicError
import SeedLogic.Text.Bytes

/-!
# Configuration

A configuration names the files of the tables, of the settings and of the audit log. Paths that
are not absolute start at the directory of the configuration file.
-/

namespace SeedLogic

/-- Where audit events go. -/
inductive AuditSink where
  | none
  | stderr
  | file
deriving DecidableEq, Repr

namespace AuditSink

/-- Every kind of sink. -/
def values : List AuditSink := [.none, .stderr, .file]

/-- The name of a sink in a file. -/
def name : AuditSink → String
  | .none => "none"
  | .stderr => "stderr"
  | .file => "file"

/-- The sink with a name. -/
def ofName? (text : String) : Option AuditSink :=
  values.find? (·.name = text)

/-- The sink of a datum: its name, or a table that maps the name to an empty table or list. -/
def ofDatum? : Datum → Option AuditSink
  | .text text => ofName? text
  | .table [(text, .table [] _)] _ => ofName? text
  | .table [(text, .list [])] _ => ofName? text
  | _ => Option.none

end AuditSink

/-- A configuration. -/
structure Config where
  /-- The file of the tables. -/
  gameData : String
  /-- The file of the settings, if there is one. -/
  settings : Option String := none
  auditSink : AuditSink := .none
  /-- The file of the audit log, if events go to a file. -/
  auditFile : Option String := none
  /-- The directory at which paths start. -/
  baseDir : Option String := none
deriving DecidableEq, Repr

/-- The kinds of files that the program uses. -/
inductive FileRole where
  | config
  | gameData
  | settings
  | audit
deriving DecidableEq, Repr

/-- The name of a kind of file in messages. -/
def FileRole.name : FileRole → String
  | .config => "config"
  | .gameData => "game data"
  | .settings => "settings"
  | .audit => "audit"

/-- Why a path is refused before it is used. -/
inductive PathFault where
  | tooLong
  | componentTooLong
deriving DecidableEq, Repr

/-- The wording of a path fault. -/
def PathFault.message : PathFault → String
  | .tooLong => "path exceeds max length"
  | .componentTooLong => "path component too long"

/-- Why a configuration or a file is refused. -/
inductive ConfigFault where
  | emptyField (field : String)
  | badField (field : String) (fault : PathFault)
  | auditPathRequired
  | auditPathUnused
  | configPathTooLong
  | badPath (fault : PathFault)
  | fileTooLarge (role : FileRole)
  | notText (role : FileRole)
  | settingsExtension (path : String)
deriving DecidableEq, Repr

/-- The lead of the wording of a refusal. -/
def ConfigFault.lead : String := "invalid config: "

/-- The wording of a refusal, without its lead. -/
def ConfigFault.message : ConfigFault → String
  | .emptyField field => s!"{field} must be non-empty"
  | .badField field fault => field ++ ": " ++ lead ++ fault.message
  | .auditPathRequired => "audit.path is required for the file sink"
  | .auditPathUnused => "audit.path is only valid for the file sink"
  | .configPathTooLong => "config path exceeds max length"
  | .badPath fault => fault.message
  | .fileTooLarge role => role.name ++ " file exceeds size limit"
  | .notText role => role.name ++ " file must be utf-8"
  | .settingsExtension path => s!"settings file must end in .toml or .json: {path}"

/-- Why a configuration or what it names cannot be loaded. -/
inductive ConfigError where
  | io (role : FileRole) (path : String) (cause : FileError)
  /-- A file does not have the form it should have. -/
  | parse (role : FileRole)
  | invalid (fault : ConfigFault)
  /-- The tables fail their integrity check. -/
  | logic (error : LogicError)
deriving DecidableEq, Repr

/-- The wording of an error. -/
def ConfigError.message : ConfigError → String
  | .io role path cause =>
    "config io error: " ++ role.name ++ " file " ++ path ++ ": " ++ cause.message
  | .parse role => "config parse error: malformed " ++ role.name ++ " file"
  | .invalid fault => ConfigFault.lead ++ fault.message
  | .logic error => "invalid game data: " ++ error.message

/-- The greatest length of a path, in bytes. -/
def maxPathLength : Nat := 4096

/-- The greatest length of a component of a path, in bytes. -/
def maxComponentLength : Nat := 255

/-- Refuses a path that is too long, as a whole or in a component. -/
def checkPath (path : String) : Except PathFault Unit :=
  if maxPathLength < path.utf8ByteSize then throw .tooLong
  else if (Path.components path).any fun c => maxComponentLength < Text.byteLength c.text then
    throw .componentTooLong
  else pure ()

namespace Config

/-- Refuses a path field that is empty or too long. -/
def checkField (field path : String) : Except ConfigFault Unit :=
  if path.isEmpty then throw (.emptyField field)
  else
    match checkPath path with
    | .ok () => pure ()
    | .error fault => throw (.badField field fault)

/-- Checks the paths of a configuration, and that an audit file is named exactly when events go to
a file. -/
def validate (config : Config) : Except ConfigFault Unit := do
  checkField "data.game_data" config.gameData
  match config.settings with
  | some path => checkField "settings.path" path
  | none => pure ()
  match config.auditSink, config.auditFile with
  | .file, some path => checkField "audit.path" path
  | .file, none => throw .auditPathRequired
  | _, some _ => throw .auditPathUnused
  | _, none => pure ()

/-- The tables of a configuration file, without a check of their values. -/
def ofDatum? (d : Datum) : Option Config := do
  let record ← d.openRecord? ["data", "settings", "audit"]
  let gameData ← Datum.field? record "data" fun d => do
    Datum.field? (← d.openRecord? ["game_data"]) "game_data" Datum.text?
  let settings ← Datum.fieldD? record "settings" none fun d => do
    Datum.fieldD? (← d.openRecord? ["path"]) "path" none Datum.optionalText?
  let audit ← Datum.fieldD? record "audit" (.none, none) fun d => do
    let fields ← d.openRecord? ["sink", "path"]
    let sink ← Datum.fieldD? fields "sink" .none AuditSink.ofDatum?
    let path ← Datum.fieldD? fields "path" none Datum.optionalText?
    some (sink, path)
  some { gameData, settings, auditSink := audit.1, auditFile := audit.2 }

/-- Reads the text of a configuration file. -/
def parse (formats : DataFormats) (content : String) : Except ConfigError Config :=
  match (formats.toml content).bind ofDatum? with
  | none => throw (.parse .config)
  | some config =>
    match config.validate with
    | .ok () => pure config
    | .error fault => throw (.invalid fault)

/-- A path seen from the base directory. -/
def resolve (config : Config) (path : String) : String :=
  match config.baseDir with
  | some base => Path.join base path
  | none => path

/-- The file of the tables. -/
def gameDataPath (config : Config) : String := config.resolve config.gameData

/-- The file of the settings. -/
def settingsPath (config : Config) : Option String := config.settings.map config.resolve

/-- The file of the audit log. -/
def auditPath (config : Config) : Option String := config.auditFile.map config.resolve

end Config

end SeedLogic
