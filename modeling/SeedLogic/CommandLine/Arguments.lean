/-!
# Command-line arguments

A command line consists of global options, a command and the arguments of the command. Global
options may stand at every level; those of the innermost level that has any replace the others.
After `--` every argument stands for itself.
-/

namespace SeedLogic.CommandLine

/-- A command with its arguments. -/
inductive Command where
  | location (general detailed : String) (flattened raw : Bool)
  | entrance (name : String)
  | smallKeys (general detailed : String)
  | entrancesForExit (exit : String)
  | exitsForEntrance (entrance : String)
  | maxCount (item : String)
  | parse (requirement : String) (flattened : Bool)
  | validateConfig
deriving DecidableEq, Repr

/-- The options that may stand at every level. -/
structure GlobalOptions where
  config : Option String := none
  nonRequiredBosses : List String := []
deriving DecidableEq, Repr

/-- What a command line asks for. -/
inductive Request where
  | run (options : GlobalOptions) (command : Command)
  | showVersion
  | showHelp
  /-- The command line does not fit. -/
  | misuse
deriving DecidableEq, Repr

/-- The commands without their arguments. -/
inductive CommandName where
  | location
  | entrance
  | smallKeys
  | entrancesForExit
  | exitsForEntrance
  | maxCount
  | parse
  | validateConfig
deriving DecidableEq, Repr

/-- How far into the commands the arguments have led. -/
inductive Level where
  | top
  /-- Inside the group of configuration commands. -/
  | config
  | command (name : CommandName)
deriving DecidableEq, Repr

/-- An option whose value is the next argument. -/
inductive PendingOption where
  | config
  | nonRequiredBoss
deriving DecidableEq, Repr

/-- What has been read so far. -/
structure Reading where
  level : Level := .top
  /-- The global options of the outer levels. -/
  outer : GlobalOptions := {}
  /-- The global options of the current level. -/
  options : GlobalOptions := {}
  /-- The plain arguments, latest first. -/
  plain : List String := []
  flattened : Bool := false
  raw : Bool := false
  pending : Option PendingOption := none
  /-- Whether `--` has been read. -/
  literal : Bool := false

namespace GlobalOptions

/-- The options of an inner level, with those of the outer level where it has none. -/
def within (inner outer : GlobalOptions) : GlobalOptions where
  config := inner.config.or outer.config
  nonRequiredBosses :=
    if inner.nonRequiredBosses.isEmpty then outer.nonRequiredBosses else inner.nonRequiredBosses

/-- The options with a value added. The configuration file is named once, and not by an empty
text. -/
def add? (options : GlobalOptions) (option : PendingOption) (value : String) :
    Option GlobalOptions :=
  match option with
  | .config =>
    if value.isEmpty || options.config.isSome then none
    else some { options with config := some value }
  | .nonRequiredBoss =>
    some { options with nonRequiredBosses := options.nonRequiredBosses ++ [value] }

end GlobalOptions

namespace CommandName

/-- The command with a name at the top level. -/
def ofText? (text : String) : Option CommandName :=
  match text with
  | "location" => some .location
  | "entrance" => some .entrance
  | "small-keys" => some .smallKeys
  | "entrances-for-exit" => some .entrancesForExit
  | "exits-for-entrance" => some .exitsForEntrance
  | "max-count" => some .maxCount
  | "parse" => some .parse
  | _ => none

/-- How many plain arguments a command takes. -/
def arity : CommandName → Nat
  | .location | .smallKeys => 2
  | .entrance | .entrancesForExit | .exitsForEntrance | .maxCount | .parse => 1
  | .validateConfig => 0

/-- Whether a command has the switch for flattened mode. -/
def hasFlattened : CommandName → Bool
  | .location | .parse => true
  | _ => false

/-- Whether a command has the switch for unsimplified trees. -/
def hasRaw : CommandName → Bool
  | .location => true
  | _ => false

end CommandName

namespace Reading

/-- One level further in. -/
def enter (r : Reading) (level : Level) : Reading :=
  { r with level, outer := r.options.within r.outer, options := {} }

/-- Reads an argument that stands for itself: the name of a command, or a plain argument of one. -/
def plain? (r : Reading) (argument : String) : Option Reading :=
  match r.level with
  | .top =>
    if r.literal then none
    else if argument = "config" then some (r.enter .config)
    else (CommandName.ofText? argument).map fun name => r.enter (.command name)
  | .config =>
    if r.literal then none
    else if argument = "validate" then some (r.enter (.command .validateConfig))
    else none
  | .command name =>
    if r.plain.length < name.arity then some { r with plain := argument :: r.plain } else none

/-- Reads a switch of the command. -/
def switch? (r : Reading) (name : String) : Option Reading :=
  match r.level with
  | .command command =>
    if name = "flattened" && command.hasFlattened && !r.flattened then
      some { r with flattened := true }
    else if name = "raw" && command.hasRaw && !r.raw then some { r with raw := true }
    else none
  | _ => none

/-- The global option with a name. -/
def option? (name : String) : Option PendingOption :=
  match name with
  | "config" => some .config
  | "non-required-boss" => some .nonRequiredBoss
  | _ => none

/-- Where reading an argument leads. -/
inductive Step where
  | further (r : Reading)
  | stop (request : Request)

/-- A step that goes on if it can. -/
def Step.ofOption : Option Reading → Step
  | some r => .further r
  | none => .stop .misuse

/-- Reads a long option, without its dashes. -/
def long (r : Reading) (text : List Char) : Step :=
  match text.span (· ≠ '=') with
  | (name, _ :: value) =>
    Step.ofOption do
      let option ← option? (.ofList name)
      let options ← r.options.add? option (.ofList value)
      some { r with options }
  | (name, []) =>
    let name := String.ofList name
    match option? name with
    | some option => .further { r with pending := some option }
    | none =>
      if name = "help" then .stop .showHelp
      else if name = "version" && r.level = .top then .stop .showVersion
      else Step.ofOption (r.switch? name)

/-- Reads short options, of which the first decides. -/
def short (r : Reading) (first : Char) : Step :=
  if first = 'h' then .stop .showHelp
  else if first = 'V' && r.level = .top then .stop .showVersion
  else .stop .misuse

/-- Reads one argument. -/
def step (r : Reading) (argument : String) : Step :=
  match r.literal, argument.toList with
  | false, ['-', '-'] =>
    if r.pending.isSome then .stop .misuse else .further { r with literal := true }
  | false, '-' :: '-' :: text => if r.pending.isSome then .stop .misuse else r.long text
  | false, '-' :: first :: _ => if r.pending.isSome then .stop .misuse else r.short first
  | _, _ =>
    match r.pending with
    | some option =>
      Step.ofOption ((r.options.add? option argument).map fun options =>
        { r with options, pending := none })
    | none => Step.ofOption (r.plain? argument)

/-- What the arguments ask for once all have been read. -/
def finish (r : Reading) : Request :=
  if r.pending.isSome then .misuse
  else
    let options := r.options.within r.outer
    match r.level, r.plain with
    | .command .location, [detailed, general] =>
      .run options (.location general detailed r.flattened r.raw)
    | .command .entrance, [name] => .run options (.entrance name)
    | .command .smallKeys, [detailed, general] => .run options (.smallKeys general detailed)
    | .command .entrancesForExit, [exit] => .run options (.entrancesForExit exit)
    | .command .exitsForEntrance, [entrance] => .run options (.exitsForEntrance entrance)
    | .command .maxCount, [item] => .run options (.maxCount item)
    | .command .parse, [requirement] => .run options (.parse requirement r.flattened)
    | .command .validateConfig, [] => .run options .validateConfig
    | _, _ => .misuse

/-- Reads the remaining arguments. -/
def readAll (r : Reading) : List String → Request
  | [] => r.finish
  | argument :: rest =>
    match r.step argument with
    | .further r => readAll r rest
    | .stop request => request

end Reading

/-- What a command line asks for. -/
def Request.ofArguments (arguments : List String) : Request :=
  Reading.readAll {} arguments

end SeedLogic.CommandLine
