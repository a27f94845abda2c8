import SeedLogic.Proofs.Config.Stages
import SeedLogic.Proofs.Data.Lines
import SeedLogic.Proofs.Files.Appending

/-!
# Opening a session

A configuration that has been read names an audit file whenever events go to a file, and tables
that have been loaded pass their integrity check. Once the audit log is open, nothing can therefore
fail any more. Until then nothing has been written, so that a failure leaves no trace; after it one
line has been appended to the log. The readers of the data formats may be any, and the printer any
one that prints lines.

## Main definitions

* `FileWorld.Serves` : hosts that act on a file tree.
* `Loading.Delivered` : what delivering the first event leaves behind.
* `Loading.Opened` : sessions that have been opened.

## Main results

* `Config.exists_auditFile_of_parse` : a configuration that has been read names its audit file.
* `Loading.outcome_openSession` : once the audit log is open, the session starts.
* `Loading.checked_openSession` : the stages of opening a session.
* `opening_fail_closed` : opening a session reports the first failure and leaves no trace then.
-/

namespace SeedLogic

/-! ### Configurations that have been read -/

namespace Config

variable {formats : DataFormats} {content : String} {config : Config}

/-- A configuration that has been read passes its check. -/
theorem validate_of_parse (h : parse formats content = .ok config) :
    config.validate = .ok () := by
  rw [parse] at h
  split at h
  · cases h
  next read _ =>
    split at h
    next hvalid =>
      cases h
      exact hvalid
    · cases h

/-- A configuration that has been read names an audit file if events go to a file. -/
theorem exists_auditFile_of_parse (h : parse formats content = .ok config)
    (hsink : config.auditSink = .file) : ∃ path, config.auditFile = some path := by
  have hvalid := validate_of_parse h
  cases hfile : config.auditFile with
  | some path => exact ⟨path, rfl⟩
  | none =>
    -- Without a file the last check throws, whether or not the ones before it do.
    rw [validate, hsink, hfile] at hvalid
    cases hdata : checkField "data.game_data" config.gameData with
    | error fault => rw [hdata] at hvalid; cases hvalid
    | ok =>
      cases hsettings : config.settings with
      | none => rw [hdata, hsettings] at hvalid; cases hvalid
      | some path =>
        cases hpath : checkField "settings.path" path <;>
          simp [hdata, hsettings, hpath, bind, Except.bind] at hvalid

end Config

/-- Tables that pass their integrity check start a session. -/
theorem Session.exists_start_of_validate {data : GameData} (h : data.validate = .ok ())
    (settings : Settings) :
    ∃ session, Session.start settings data = (.ok session, .sessionStarted (summary data)) ∧
      session.data = data ∧ session.settings = settings := by
  rw [start, h]
  exact ⟨_, rfl, rfl, rfl⟩

/-! ### Hosts on a file tree -/

/-- A host that acts on a file tree. It may refuse to read or to open a file for reasons of its own,
and then changes nothing. -/
structure FileWorld.Serves (host : Host (StateM FileWorld)) : Prop where
  readFile (path : String) (world : FileWorld) :
    (host.readFile path).run world = (world.tree.read path, world) ∨
      ∃ cause, (host.readFile path).run world = (.error cause, world)
  openForAppend (path : String) (world : FileWorld) :
    (∃ tree, world.tree.touch path = .ok tree ∧
        (host.openForAppend path).run world = (.ok (), { world with tree })) ∨
      ∃ cause, (host.openForAppend path).run world = (.error cause, world)
  appendLine (path line : String) (world : FileWorld) :
    (host.appendLine path line).run world =
      ((), { world with tree := world.tree.appendLine path line })
  writeError (line : String) (world : FileWorld) :
    (host.writeError line).run world = ((), { world with errors := line :: world.errors })
  now (world : FileWorld) : ((host.now).run world).2 = world

namespace FileWorld

/-- The host of a file tree refuses what the tree does. -/
theorem serves_host : Serves host where
  readFile _ _ := .inl rfl
  openForAppend path world := by
    cases htouch : world.tree.touch path with
    | ok tree =>
      refine .inl ⟨tree, rfl, ?_⟩
      simp [host, htouch]
      rfl
    | error cause =>
      refine .inr ⟨cause, ?_⟩
      simp [host, htouch]
      rfl
  appendLine _ _ _ := rfl
  writeError _ _ := rfl
  now _ := rfl

variable {host : Host (StateM FileWorld)}

/-- Reading changes nothing. -/
theorem Serves.snd_readFile (h : Serves host) (world : FileWorld) (path : String) :
    ((host.readFile path).run world).2 = world := by
  rcases h.readFile path world with hread | ⟨cause, hread⟩ <;> rw [hread]

end FileWorld

/-! ### The audit log -/

namespace Loading

variable {config : Config} {world later : FileWorld} {target : AuditTarget} {line : String}

/-- What delivering one line leaves behind: nothing, a line on the error stream, or a line at the
end of the audit log, whose earlier content is kept. -/
inductive Delivered (config : Config) (line : String) (world : FileWorld) :
    AuditTarget → FileWorld → Prop
  | nowhere (hsink : config.auditSink = .none) : Delivered config line world .nowhere world
  | errorStream (hsink : config.auditSink = .stderr) :
    Delivered config line world .errorStream { world with errors := line :: world.errors }
  | file {path : String} {names : List String} {tree : FileTree} (hsink : config.auditSink = .file)
      (hpath : config.auditPath = some path) (htarget : world.tree.appendTarget path = .ok names)
      (happended : world.tree.Appended names line tree)
      (hread : tree.read path =
        .ok ((world.tree.read path).toOption.getD .empty ++ (line ++ "\n").toUTF8)) :
    Delivered config line world (.file path) { world with tree }

/-- The audit log is open in the later world. -/
inductive Ready (config : Config) (world : FileWorld) : AuditTarget → FileWorld → Prop
  | nowhere (hsink : config.auditSink = .none) : Ready config world .nowhere world
  | errorStream (hsink : config.auditSink = .stderr) : Ready config world .errorStream world
  | file {path : String} {tree : FileTree} (hsink : config.auditSink = .file)
      (hpath : config.auditPath = some path) (htouch : world.tree.touch path = .ok tree) :
    Ready config world (.file path) { world with tree }

variable {formats : DataFormats} {host : Host (StateM FileWorld)}

variable (formats) in
/-- The stage of the audit log. The configuration names the file that it needs. -/
theorem checked_openAudit (hserves : FileWorld.Serves host) (world : FileWorld)
    (haudit : config.auditSink = .file → ∃ path, config.auditPath = some path) :
    Checked (openAudit host config) world
      [Stage.failure? formats config (host.answers world) .auditLog] (Ready config world) := by
  rw [openAudit]
  cases hsink : config.auditSink with
  | none => exact .succeeded (by simp [Stage.failure?, hsink]) rfl (.nowhere hsink)
  | stderr => exact .succeeded (by simp [Stage.failure?, hsink]) rfl (.errorStream hsink)
  | file =>
    obtain ⟨path, hpath⟩ := haudit hsink
    rw [hpath]
    rcases hserves.openForAppend path world with ⟨tree, htouch, hopen⟩ | ⟨cause, hopen⟩
    · have hfailure : Stage.failure? formats config (host.answers world) .auditLog = none := by
        simp only [Stage.failure?, hsink, hpath, Host.answers, hopen]
      refine .succeeded (by rw [hfailure]; rfl) ?_ (.file hsink hpath htouch)
      show outcome world (liftM (host.openForAppend path) >>= _) = _
      rw [outcome_lift_bind, hopen]
      rfl
    · have hfailure : Stage.failure? formats config (host.answers world) .auditLog =
          some (.io .audit path cause) := by
        simp only [Stage.failure?, hsink, hpath, Host.answers, hopen]
      refine .failed (by rw [hfailure]; rfl) ?_
      show outcome world (liftM (host.openForAppend path) >>= _) = _
      rw [outcome_lift_bind, hopen]
      rfl

/-- Delivering an event to the open audit log adds its line and nothing else. -/
theorem Ready.delivered (hserves : FileWorld.Serves host) (h : Ready config world target later)
    (event : AuditEvent) : ∃ time, Delivered config (formats.print (event.toDatum time)) world
      target ((deliver formats host target event).run later).2 := by
  have hnow : host.now.run later = ((host.now.run later).1, later) :=
    Prod.ext rfl (hserves.now later)
  refine ⟨(host.now.run later).1, ?_⟩
  cases h with
  | nowhere hsink => exact .nowhere hsink
  | errorStream hsink =>
    rw [deliver, StateT.run_bind, hnow]
    show Delivered _ _ _ _ ((host.writeError _).run world).2
    rw [hserves.writeError]
    exact .errorStream hsink
  | @file path tree hsink hpath htouch =>
    rw [deliver, StateT.run_bind, hnow]
    show Delivered _ _ _ _ ((host.appendLine path _).run _).2
    rw [hserves.appendLine]
    obtain ⟨names, htarget, hlater, happended⟩ := FileTree.appended_of_touch htouch _
    exact .file hsink hpath htarget happended (happended.read htarget hlater)

/-! ### Sessions -/

/-- The settings are those of the file that the configuration names, if it names one. -/
def SettingsLoaded (formats : DataFormats) (host : Host (StateM FileWorld)) (config : Config)
    (world : FileWorld) (settings : Settings) : Prop :=
  match config.settingsPath with
  | some path => outcome world (loadSettings formats host path) = (.ok settings, world)
  | none => settings = {}

/-- A session has been opened: tables and settings have been loaded, the session is the one that
starts with them, and its first event has been delivered on one line. -/
structure Opened (formats : DataFormats) (host : Host (StateM FileWorld)) (config : Config)
    (world : FileWorld) (session : Session) (target : AuditTarget) (later : FileWorld) : Prop where
  tables : outcome world (loadGameData formats host config.gameDataPath) = (.ok session.data, world)
  settings : SettingsLoaded formats host config world session.settings
  started : Session.start session.settings session.data =
    (.ok session, .sessionStarted (Session.summary session.data))
  delivered : ∃ line time, line = formats.print
      ((AuditEvent.sessionStarted (Session.summary session.data)).toDatum time) ∧
    '\n' ∉ line.toList ∧ Delivered config line world target later

/-- Once tables and settings have been loaded, only the audit log can still fail. -/
theorem checked_start (hserves : FileWorld.Serves host) (hprint : formats.PrintsLines)
    (haudit : config.auditSink = .file → ∃ path, config.auditPath = some path)
    {data : GameData} {settings : Settings}
    (hdata : outcome world (loadGameData formats host config.gameDataPath) = (.ok data, world))
    (hvalid : data.validate = .ok ())
    (hsettings : SettingsLoaded formats host config world settings) :
    Checked
      (do
        let target ← openAudit host config
        let (session, event) := Session.start settings data
        liftM (deliver formats host target event)
        match session with
        | .ok session => pure (session, target)
        | .error e => throw (.logic e))
      world [Stage.failure? formats config (host.answers world) .auditLog]
      fun result later => Opened formats host config world result.1 result.2 later := by
  obtain ⟨session, hstart, rfl, rfl⟩ := Session.exists_start_of_validate hvalid settings
  cases checked_openAudit formats hserves world haudit with
  | failed hfirst h => exact .failed hfirst (outcome_bind_of_error _ h)
  | @succeeded target opened hnone h hready =>
    obtain ⟨time, hdelivered⟩ := hready.delivered hserves
      (.sessionStarted (Session.summary session.data))
    have hopened : Opened formats host config world session target _ :=
      ⟨hdata, hsettings, hstart, _, time, rfl, hprint _, hdelivered⟩
    refine .succeeded (a := (session, target)) hnone ((outcome_bind_of_ok _ h).trans ?_) hopened
    rw [hstart]
    exact outcome_lift_bind _ _ _

/-- Tables that have been loaded start a session. -/
theorem exists_start_of_loadGameData (hserves : FileWorld.Serves host) {data : GameData}
    (h : outcome world (loadGameData formats host config.gameDataPath) = (.ok data, world))
    (settings : Settings) : ∃ session, Session.start settings data =
      (.ok session, .sessionStarted (Session.summary data)) := by
  have hvalid := ((checked_loadGameData (hserves.snd_readFile world) config).of_ok h).2.2
  obtain ⟨session, hstart, -, -⟩ := Session.exists_start_of_validate hvalid settings
  exact ⟨session, hstart⟩

section Session

variable (hserves : FileWorld.Serves host)
  (haudit : config.auditSink = .file → ∃ path, config.auditPath = some path)

include hserves haudit

/-- When tables and settings have been loaded and the audit log is open, no stage has failed. -/
theorem firstFailure?_eq_none {data : GameData} {settings : Settings}
    (hdata : outcome world (loadGameData formats host config.gameDataPath) = (.ok data, world))
    (hsettings : SettingsLoaded formats host config world settings)
    (hlog : outcome world (openAudit host config) = (.ok target, later)) :
    Stage.firstFailure? formats config (host.answers world) = none := by
  have hreads := hserves.snd_readFile world
  have hofSettings : (Stage.ofSettings.map
      (Stage.failure? formats config (host.answers world))).findSome? id = none := by
    rw [SettingsLoaded] at hsettings
    split at hsettings
    next path hpath => exact ((checked_loadSettings hreads hpath).of_ok hsettings).1
    next hpath => simp [Stage.ofSettings, Stage.failure?, hpath]
  have hofTables := ((checked_loadGameData hreads config).of_ok hdata).1
  rw [Stage.firstFailure?, ← Stage.findSome?_map, Stage.inOrder, List.map_append, List.map_append,
    List.findSome?_append, List.findSome?_append, hofTables, hofSettings, Option.none_or,
    Option.none_or]
  exact ((checked_openAudit formats hserves world haudit).of_ok hlog).1

variable (hprint : formats.PrintsLines)

include hprint

/-- The stages of opening a session. -/
theorem checked_openSession (world : FileWorld) :
    Checked (openSession formats host config) world
      (Stage.inOrder.map (Stage.failure? formats config (host.answers world)))
      fun result later => Opened formats host config world result.1 result.2 later := by
  rw [openSession, Stage.inOrder, List.map_append, List.map_append]
  refine Checked.bind (checked_loadGameData (hserves.snd_readFile world) config).and_outcome
    fun data hloaded => ?_
  obtain ⟨hvalid, hdata⟩ := hloaded
  cases hpath : config.settingsPath with
  | none =>
    have hstart := checked_start hserves hprint haudit hdata hvalid
      (show SettingsLoaded formats host config world {} by rw [SettingsLoaded, hpath])
    exact .append (by simp [Stage.ofSettings, Stage.failure?, hpath]) hstart
  | some path =>
    refine Checked.bind (checked_loadSettings (hserves.snd_readFile world) hpath).and_outcome
      fun settings hloaded => checked_start hserves hprint haudit hdata hvalid ?_
    rw [SettingsLoaded, hpath]
    exact hloaded.2

/-- The failure of the first stage that fails is reported, and nothing has changed. -/
theorem outcome_of_firstFailure?_eq_some {e : ConfigError}
    (h : Stage.firstFailure? formats config (host.answers world) = some e) :
    outcome world (openSession formats host config) = (.error e, world) := by
  rw [Stage.firstFailure?, ← Stage.findSome?_map] at h
  cases checked_openSession hserves haudit hprint world with
  | failed hfirst hfails =>
    rw [hfirst] at h
    rw [hfails, Option.some.inj h]
  | succeeded hnone =>
    rw [hnone] at h
    cases h

/-- A session is opened when no stage fails. -/
theorem exists_opened_of_firstFailure?_eq_none
    (h : Stage.firstFailure? formats config (host.answers world) = none) :
    ∃ session target later, outcome world (openSession formats host config) =
      (.ok (session, target), later) ∧ Opened formats host config world session target later := by
  rw [Stage.firstFailure?, ← Stage.findSome?_map] at h
  cases checked_openSession hserves haudit hprint world with
  | failed hfirst =>
    rw [hfirst] at h
    cases h
  | @succeeded opening later _ hok hopened => exact ⟨opening.1, opening.2, later, hok, hopened⟩

/-- Neither the audit log nor the session fails to open for want of the path of the log. -/
theorem ne_auditPathRequired (world : FileWorld) :
    (outcome world (openSession formats host config)).1 ≠ .error (.invalid .auditPathRequired) ∧
      (outcome world (openAudit host config)).1 ≠ .error (.invalid .auditPathRequired) := by
  refine ⟨fun h => ?_, fun h => ?_⟩
  · exact Stage.ne_auditPathRequired_of_findSome? Stage.inOrder
      ((checked_openSession hserves haudit hprint world).of_error h) rfl
  · have hfirst := (checked_openAudit formats hserves world haudit).of_error h
    exact Stage.ne_auditPathRequired_of_findSome? [.auditLog] hfirst rfl

end Session

end Loading

/-! ### Opening a session -/

open Loading

/-- Opening a session as a configuration says that has been read, from any base directory, relative
or absolute, and on any file tree, reports the failure of the first stage that fails and leaves no
trace then. The audit log is only touched after tables and settings have been loaded. Once it is
open the session starts, and its first event has been delivered: the tables pass their second check
as they did the first one, and the path of the log is not found missing. -/
theorem opening_fail_closed {formats : DataFormats} {content : String} {parsed : Config}
    (hparse : Config.parse formats content = .ok parsed) (hprint : formats.PrintsLines)
    (base : Option String) {host : Host (StateM FileWorld)} (hserves : FileWorld.Serves host)
    (world : FileWorld) :
    let config := { parsed with baseDir := base }
    let firstFailure := Stage.firstFailure? formats config (host.answers world)
    let result := outcome world (openSession formats host config)
    let tablesLoaded := ∃ data,
      outcome world (loadGameData formats host config.gameDataPath) = (.ok data, world)
    let settingsLoaded := ∃ settings, SettingsLoaded formats host config world settings
    (∀ e, firstFailure = some e → result = (.error e, world)) ∧
      (firstFailure = none → ∃ session target later, result = (.ok (session, target), later) ∧
        Opened formats host config world session target later) ∧
      (result.2 ≠ world → tablesLoaded ∧ settingsLoaded) ∧
      (∀ log opened, tablesLoaded → settingsLoaded →
        outcome world (openAudit host config) = (.ok log, opened) →
          ∃ session target later, result = (.ok (session, target), later)) ∧
      (∀ data settings,
        outcome world (loadGameData formats host config.gameDataPath) = (.ok data, world) →
          ∃ session, Session.start settings data =
            (.ok session, .sessionStarted (Session.summary data))) ∧
      result.1 ≠ .error (.invalid .auditPathRequired) ∧
      (outcome world (openAudit host config)).1 ≠ .error (.invalid .auditPathRequired) := by
  intro config firstFailure result tablesLoaded settingsLoaded
  have haudit (hsink : config.auditSink = .file) : ∃ path, config.auditPath = some path := by
    obtain ⟨path, hpath⟩ := Config.exists_auditFile_of_parse hparse hsink
    exact ⟨config.resolve path, congrArg (Option.map config.resolve) hpath⟩
  refine ⟨fun e => outcome_of_firstFailure?_eq_some hserves haudit hprint,
    exists_opened_of_firstFailure?_eq_none hserves haudit hprint, fun hchanged => ?_, ?_,
    fun data settings hdata => exists_start_of_loadGameData hserves hdata settings,
    ne_auditPathRequired hserves haudit hprint world⟩
  · cases hfirst : firstFailure with
    | some e =>
      have hresult : result = (.error e, world) :=
        outcome_of_firstFailure?_eq_some hserves haudit hprint hfirst
      rw [hresult] at hchanged
      exact absurd rfl hchanged
    | none =>
      obtain ⟨session, target, later, -, hopened⟩ :=
        exists_opened_of_firstFailure?_eq_none hserves haudit hprint hfirst
      exact ⟨⟨_, hopened.tables⟩, ⟨_, hopened.settings⟩⟩
  · rintro log opened ⟨data, hdata⟩ ⟨settings, hsettings⟩ hlog
    obtain ⟨session, target, later, hresult, -⟩ :=
      exists_opened_of_firstFailure?_eq_none hserves haudit hprint
        (firstFailure?_eq_none hserves haudit hdata hsettings hlog)
    exact ⟨session, target, later, hresult⟩

private theorem eq_ok_of_toOption {ε α : Type} {x : Except ε α} {a : α}
    (h : x.toOption = some a) : x = .ok a := by
  cases x with
  | error e => cases h
  | ok b => exact congrArg _ (Option.some.inj h)

/-- From an absolute base directory, and with another working directory, tables without entries and
an audit log with one line are found there and settings under their own absolute path. The log keeps
its line in front of the new one. -/
theorem opening_fail_closed_absolute_base :
    let config : Config :=
      { gameData := "data.json", settings := some "/etc/tracker.json", auditSink := .file,
        auditFile := some "audit.log", baseDir := some "/srv/tracker" }
    let world : FileWorld :=
      { tree :=
          { files := [(["srv", "tracker", "data.json"], "\x7b\x7d".toUTF8),
              (["etc", "tracker.json"], "\x7b\x7d".toUTF8),
              (["srv", "tracker", "audit.log"], "first\n".toUTF8)],
            workingDirectory := ["home"] } }
    ∃ session later line, outcome world (openSession .standard FileWorld.host config) =
        (.ok (session, .file "/srv/tracker/audit.log"), later) ∧ '\n' ∉ line.toList ∧
      later.tree.read "/srv/tracker/audit.log" =
        .ok ("first\n".toUTF8 ++ (line ++ "\n").toUTF8) := by
  intro config world
  have hparse : Config.parse .standard
      ("[data]\ngame_data = \"data.json\"\n[settings]\npath = \"/etc/tracker.json\"\n" ++
        "[audit]\nsink = \"file\"\npath = \"audit.log\"\n") =
        .ok { config with baseDir := none } :=
    eq_ok_of_toOption (by decide +kernel)
  obtain ⟨-, hopen, -⟩ := opening_fail_closed hparse Json.newline_notMem_print
    (some "/srv/tracker") FileWorld.serves_host world
  obtain ⟨session, target, later, hresult, hopened⟩ := hopen (by decide +kernel)
  obtain ⟨line, -, -, hline, hdelivered⟩ := hopened.delivered
  cases hdelivered with
  | nowhere hsink => cases hsink
  | errorStream hsink => cases hsink
  | file hsink hpath htarget happended hread =>
    have hname : config.auditPath = some "/srv/tracker/audit.log" := by decide +kernel
    obtain rfl := Option.some.inj (hname.symm.trans hpath)
    have hfirst : (world.tree.read "/srv/tracker/audit.log").toOption =
        some "first\n".toUTF8 := by
      decide +kernel
    refine ⟨session, _, line, hresult, hline, ?_⟩
    rw [hfirst] at hread
    exact hread

end SeedLogic
