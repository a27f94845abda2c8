import SeedLogic.CommandLine.Arguments
import SeedLogic.Config.Loading
import SeedLogic.Requirement.Format
import SeedLogic.Session.Operation

/-!
# Running a command

A command loads the configuration, opens a session, marks bosses as not required and asks one
question. The answer is one line of JSON. Events go to the audit log before an error is reported.
-/

namespace SeedLogic.CommandLine

/-- What a run leaves behind besides what it wrote on the way. -/
structure Outcome where
  exitCode : Nat
  output : String
deriving DecidableEq, Repr

/-- Why a command fails. -/
inductive CommandError where
  | config (error : ConfigError)
  | logic (error : LogicError)
deriving DecidableEq, Repr

/-- The wording of an error. -/
def CommandError.message : CommandError → String
  | .config error => error.message
  | .logic error => "logic error: " ++ error.message

/-- The line that answers a query about a requirement. -/
def requirementAnswer (query : String) (requirement : Requirement) : Datum :=
  .table [("query", .text query), ("requirement", requirement.toDatum)]

/-- The line that answers a query about candidates. -/
def candidatesAnswer (query : String) (candidates : List String) : Datum :=
  .table [("query", .text query), ("candidates", .ofTexts candidates)]

/-- The full name of a location. -/
def locationName (general detailed : String) : String :=
  general ++ " - " ++ detailed

/-- The answer to a command. -/
def answer (config : Config) : Command → Query Datum
  | .location general detailed flattened raw => do
    let tree ←
      if raw then Session.rawRequirementsForLocation general detailed flattened
      else Session.requirementsForLocation general detailed flattened
    pure (requirementAnswer (locationName general detailed) tree)
  | .entrance name => do
    let tree ← Session.requirementsForEntrance name
    pure (requirementAnswer name tree)
  | .smallKeys general detailed => do
    let count ← Session.smallKeysRequired general detailed
    pure (.table [("location", .text (locationName general detailed)),
      ("small_keys", .ofCount count)])
  | .entrancesForExit exit => do
    let candidates ← Session.randomEntrancesForExit exit
    pure (candidatesAnswer exit candidates)
  | .exitsForEntrance entrance => do
    let candidates ← Session.randomExitsForEntrance entrance
    pure (candidatesAnswer entrance candidates)
  | .maxCount item => do
    let s ← get
    pure (.table [("item", .text item), ("max_count", .ofCount (s.maxItemCount item)),
      ("starting_count", .ofCount (s.startingItemCount item))])
  | .parse requirement flattened => do
    let tree ← Session.buildRequirement requirement flattened
    pure (requirementAnswer requirement tree)
  | .validateConfig =>
    pure (.table [("status", .text "ok"), ("game_data", .text config.gameDataPath),
      ("settings", .ofOptionalText config.settingsPath)])

/-- Marks bosses as not required and answers a command. -/
def answerWithout (config : Config) (bosses : List String) (command : Command) : Query Datum := do
  for boss in bosses do
    Session.setBoss boss false
  answer config command

variable {m : Type → Type} [Monad m]

/-- Carries out a command, delivering the events of the session on the way. -/
def execute (formats : DataFormats) (host : Host m) (environment : Option String)
    (options : GlobalOptions) (command : Command) : ExceptT CommandError m Datum := do
  let path ← ExceptT.mk (pure ((Loading.configPath options.config environment).mapError .config))
  let config ← (Loading.loadConfig formats host path).adapt .config
  let (session, target) ← (Loading.openSession formats host config).adapt .config
  let (result, session') := (answerWithout config options.nonRequiredBosses command).run.run session
  for event in session'.events.drop session.events.length do
    liftM (Loading.deliver formats host target event)
  ExceptT.mk (pure (result.mapError .logic))

/-- The name and version of the program. -/
def versionLine : String := "logic-tracker 0.1.0\n"

/-- A short description of the command line. -/
def helpText : String :=
  "\n".intercalate
    ["Query randomizer logic tables", "",
      "Usage: logic-tracker [OPTIONS] <COMMAND>", "",
      "Commands:",
      "  location [--flattened] [--raw] <GENERAL> <DETAILED>",
      "  entrance <NAME>",
      "  small-keys <GENERAL> <DETAILED>",
      "  entrances-for-exit <EXIT>",
      "  exits-for-entrance <ENTRANCE>",
      "  max-count <ITEM>",
      "  parse [--flattened] <REQUIREMENT>",
      "  config validate", "",
      "Options:",
      "  --config <PATH>",
      "  --non-required-boss <DUNGEON>",
      "  -h, --help",
      "  -V, --version", ""]

/-- Runs the program on its arguments. -/
def run (formats : DataFormats) (host : Host m) (environment : Option String)
    (arguments : List String) : m Outcome := do
  match Request.ofArguments arguments with
  | .showVersion => pure ⟨0, versionLine⟩
  | .showHelp => pure ⟨0, helpText⟩
  | .misuse => do
    host.writeError "error: the arguments do not fit; see --help"
    pure ⟨2, ""⟩
  | .run options command =>
    match ← (execute formats host environment options command).run with
    | .ok datum => pure ⟨0, formats.print datum ++ "\n"⟩
    | .error e => do
      host.writeError e.message
      pure ⟨1, ""⟩

end SeedLogic.CommandLine
