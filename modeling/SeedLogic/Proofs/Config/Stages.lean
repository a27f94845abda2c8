import SeedLogic.Config.Loading

/-!
# The stages of loading

Opening a session goes through stages that each may fail in one way: those of the tables, those of
the settings, and the opening of the audit log. Whether a stage fails follows from the
configuration, from the readers of the data formats, which may be any, and from what the system
answers when a file is read or opened. The loaders report the failure of the first stage that fails,
and leave the world as it is.

## Main definitions

* `Stage`, `Stage.inOrder` : the stages and their order.
* `SystemAnswers` : what the system answers about the files of a configuration.
* `Stage.failure?`, `Stage.firstFailure?` : the failure of a stage, and that of the first one that
  fails.
* `Loading.Checked` : computations that report the first of some failures.

## Main results

* `Loading.checked_readText` : the stages of reading a text.
* `Loading.checked_loadGameData`, `Loading.checked_loadSettings` : the stages of both loaders.
-/

namespace SeedLogic

variable {α β σ : Type}

/-! ### Files and what the system answers -/

/-- What the system answers when a file is read, and when it is opened for appending. -/
structure SystemAnswers where
  reads : String → Except FileError ByteArray
  opens : String → Except FileError Unit

/-- The answers of a host in a world. -/
def Host.answers (host : Host (StateM σ)) (world : σ) : SystemAnswers where
  reads path := ((host.readFile path).run world).1
  opens path := ((host.openForAppend path).run world).1

/-- A file that is read whole: its kind, its path, and the form that its text should have. -/
structure SourceFile (α : Type) where
  role : FileRole
  /-- The greatest size, in bytes. -/
  limit : Nat
  path : String
  form : String → Option α

/-- The stages of reading a file. -/
inductive FileStage where
  /-- The path is not too long. -/
  | path
  /-- The system gives the content. -/
  | read
  /-- The content is not too large. -/
  | size
  /-- The content is a text. -/
  | text
  /-- The text has the form it should have. -/
  | form
deriving DecidableEq, Repr

namespace SourceFile

variable (file : SourceFile α) (answers : SystemAnswers)

/-- The text of the file. -/
def text? : Option String :=
  match answers.reads file.path with
  | .ok bytes => String.fromUTF8? bytes
  | .error _ => none

/-- What the text of the file stands for. -/
def value? : Option α :=
  (file.text? answers).bind file.form

/-- The failure of a stage of reading the file. A stage for which an earlier one leaves nothing to
look at does not fail. -/
def failure? : FileStage → Option ConfigError
  | .path =>
    match checkPath file.path with
    | .ok () => none
    | .error fault => some (.invalid (.badPath fault))
  | .read =>
    match answers.reads file.path with
    | .ok _ => none
    | .error cause => some (.io file.role file.path cause)
  | .size =>
    match answers.reads file.path with
    | .ok bytes =>
      if file.limit < bytes.size then some (.invalid (.fileTooLarge file.role)) else none
    | .error _ => none
  | .text =>
    match answers.reads file.path with
    | .ok bytes =>
      if (String.fromUTF8? bytes).isNone then some (.invalid (.notText file.role)) else none
    | .error _ => none
  | .form =>
    match file.text? answers with
    | some text => if (file.form text).isNone then some (.parse file.role) else none
    | none => none

end SourceFile

/-! ### The files of a configuration -/

variable (formats : DataFormats)

namespace Config

/-- The file of the tables. -/
def tablesFile (config : Config) : SourceFile GameData where
  role := .gameData
  limit := Loading.maxGameDataFileSize
  path := config.gameDataPath
  form := Loading.gameData? formats

end Config

/-- The file of settings under a path, whose extension says how its text is read. -/
def settingsFile (path : String) : SourceFile Settings where
  role := .settings
  limit := Loading.maxSmallFileSize
  path := path
  form text :=
    match Loading.settingsFormat path with
    | .ok format => Loading.settings? formats format text
    | .error _ => none

/-! ### Stages -/

/-- The stages of opening a session. -/
inductive Stage where
  | tables (stage : FileStage)
  /-- The tables pass their integrity check. -/
  | integrity
  /-- The settings have an extension that is known. -/
  | extension
  | settings (stage : FileStage)
  /-- The audit log is opened. -/
  | auditLog
deriving DecidableEq, Repr

namespace Stage

/-- The stages of the tables in their order. -/
def ofTables : List Stage :=
  [.tables .path, .tables .read, .tables .size, .tables .text, .tables .form, .integrity]

/-- The stages of the settings in their order. -/
def ofSettings : List Stage :=
  [.extension, .settings .path, .settings .read, .settings .size, .settings .text, .settings .form]

/-- All stages in their order. -/
def inOrder : List Stage := ofTables ++ (ofSettings ++ [.auditLog])

/-- The failure of a stage. -/
def failure? (config : Config) (answers : SystemAnswers) : Stage → Option ConfigError
  | .tables stage => (config.tablesFile formats).failure? answers stage
  | .integrity =>
    match (config.tablesFile formats).value? answers with
    | some data =>
      match data.validate with
      | .ok () => none
      | .error e => some (.logic e)
    | none => none
  | .extension =>
    match config.settingsPath with
    | some path =>
      if (Path.extension? path).map (·.map Char.toLower) ∈
          [some ['t', 'o', 'm', 'l'], some ['j', 's', 'o', 'n']] then none
      else some (.invalid (.settingsExtension path))
    | none => none
  | .settings stage =>
    match config.settingsPath with
    | some path => (settingsFile formats path).failure? answers stage
    | none => none
  | .auditLog =>
    match config.auditSink, config.auditPath with
    | .file, some path =>
      match answers.opens path with
      | .ok () => none
      | .error cause => some (.io .audit path cause)
    | _, _ => none

/-- The failure of the first stage that fails. -/
def firstFailure? (config : Config) (answers : SystemAnswers) : Option ConfigError :=
  inOrder.findSome? (failure? formats config answers)

variable {formats}

/-- The first failure is the first one of the list of failures. -/
theorem findSome?_map (stages : List Stage) (config : Config) (answers : SystemAnswers) :
    (stages.map (failure? formats config answers)).findSome? id =
      stages.findSome? (failure? formats config answers) := by
  rw [List.findSome?_map, Function.id_comp]

/-- No stage fails since the path of the audit log is missing. -/
theorem failure?_ne_auditPathRequired (config : Config) (answers : SystemAnswers) (stage : Stage) :
    stage.failure? formats config answers ≠ some (.invalid .auditPathRequired) := by
  have hfile {α : Type} (file : SourceFile α) (stage : FileStage) :
      file.failure? answers stage ≠ some (.invalid .auditPathRequired) := by
    cases stage <;> rw [SourceFile.failure?] <;> split <;> simp
  cases stage with
  | tables stage => exact hfile _ stage
  | settings stage =>
    rw [failure?]
    split
    · exact hfile _ stage
    · nofun
  | integrity =>
    rw [failure?]
    split
    · split <;> simp
    · nofun
  | extension => rw [failure?]; split <;> simp
  | auditLog =>
    rw [failure?]
    split
    · split <;> simp
    · nofun

theorem ne_auditPathRequired_of_findSome? (stages : List Stage) {config : Config}
    {answers : SystemAnswers} {e : ConfigError}
    (h : (stages.map (failure? formats config answers)).findSome? id = some e) :
    e ≠ .invalid .auditPathRequired := by
  rw [findSome?_map] at h
  obtain ⟨stage, -, hfails⟩ := List.exists_of_findSome?_eq_some h
  rintro rfl
  exact failure?_ne_auditPathRequired config answers stage hfails

end Stage

/-! ### Computations that report the first failure -/

namespace Loading

/-- What a computation gives in a world, together with the world after it. -/
def outcome (world : σ) (x : LoadM (StateM σ) α) : Except ConfigError α × σ :=
  Id.run (x.run.run world)

theorem outcome_bind (world : σ) (x : LoadM (StateM σ) α) (next : α → LoadM (StateM σ) β) :
    outcome world (x >>= next) =
      match outcome world x with
      | (.ok a, later) => outcome later (next a)
      | (.error e, later) => (.error e, later) := by
  have h : outcome world (x >>= next) =
      match outcome world x with
      | (result, later) => Id.run ((ExceptT.bindCont next result).run later) := rfl
  rw [h]
  rcases outcome world x with ⟨_ | _, _⟩ <;> rfl

theorem outcome_bind_of_ok {world later : σ} {x : LoadM (StateM σ) α} {a : α}
    (next : α → LoadM (StateM σ) β) (h : outcome world x = (.ok a, later)) :
    outcome world (x >>= next) = outcome later (next a) := by
  rw [outcome_bind, h]

theorem outcome_bind_of_error {world later : σ} {x : LoadM (StateM σ) α} {e : ConfigError}
    (next : α → LoadM (StateM σ) β) (h : outcome world x = (.error e, later)) :
    outcome world (x >>= next) = (.error e, later) := by
  rw [outcome_bind, h]

theorem outcome_lift_bind (world : σ) (action : StateM σ α) (next : α → LoadM (StateM σ) β) :
    outcome world (liftM action >>= next) =
      outcome (action.run world).2 (next (action.run world).1) := rfl

/-- The computation reports the first of the failures and leaves the world as it is; without any of
them it succeeds. -/
inductive Checked (x : LoadM (StateM σ) α) (world : σ) (failures : List (Option ConfigError))
    (post : α → σ → Prop) : Prop
  | failed {e : ConfigError} (hfirst : failures.findSome? id = some e)
      (h : outcome world x = (.error e, world))
  | succeeded {a : α} {later : σ} (hnone : failures.findSome? id = none)
      (h : outcome world x = (.ok a, later)) (hpost : post a later)

variable {formats : DataFormats} {x : LoadM (StateM σ) α} {next : α → LoadM (StateM σ) β}
  {world : σ} {failures others : List (Option ConfigError)} {value : α → Prop}
  {post : β → σ → Prop}

/-- A computation that goes on in an unchanged world reports what either part reports first. -/
theorem Checked.bind (hx : Checked x world failures fun a later => later = world ∧ value a)
    (hnext : ∀ a, value a → Checked (next a) world others post) :
    Checked (x >>= next) world (failures ++ others) post := by
  cases hx with
  | failed hfirst h =>
    exact .failed (by rw [List.findSome?_append, hfirst, Option.some_or])
      (outcome_bind_of_error next h)
  | succeeded hnone h hpost =>
    obtain ⟨rfl, hvalue⟩ := hpost
    cases hnext _ hvalue with
    | failed hfirst hrest =>
      exact .failed (by rw [List.findSome?_append, hnone, Option.none_or, hfirst])
        ((outcome_bind_of_ok next h).trans hrest)
    | succeeded hnone' hrest hpost =>
      exact .succeeded (by rw [List.findSome?_append, hnone, Option.none_or, hnone'])
        ((outcome_bind_of_ok next h).trans hrest) hpost

/-- A computation that succeeds meets none of the failures. -/
theorem Checked.of_ok {post : α → σ → Prop} {a : α} {later : σ}
    (hx : Checked x world failures post) (h : outcome world x = (.ok a, later)) :
    failures.findSome? id = none ∧ post a later := by
  cases hx with
  | failed _ hfails =>
    rw [hfails] at h
    cases h
  | succeeded hnone hok hpost =>
    rw [hok] at h
    cases h
    exact ⟨hnone, hpost⟩

/-- A computation that fails meets one of the failures. -/
theorem Checked.of_error {post : α → σ → Prop} {e : ConfigError}
    (hx : Checked x world failures post) (h : (outcome world x).1 = .error e) :
    failures.findSome? id = some e := by
  cases hx with
  | failed hfirst hfails =>
    rw [hfails] at h
    cases h
    exact hfirst
  | succeeded _ hok =>
    rw [hok] at h
    cases h

/-- What a computation succeeds with is its result. -/
theorem Checked.and_outcome (hx : Checked x world failures fun a later => later = world ∧ value a) :
    Checked x world failures fun a later =>
      later = world ∧ (value a ∧ outcome world x = (.ok a, world)) := by
  cases hx with
  | failed hfirst h => exact .failed hfirst h
  | succeeded hnone h hpost =>
    obtain ⟨rfl, hvalue⟩ := hpost
    exact .succeeded hnone h ⟨rfl, hvalue, h⟩

/-- Stages that do not fail may be left out. -/
theorem Checked.append {post : α → σ → Prop} (hnone : failures.findSome? id = none)
    (hx : Checked x world others post) : Checked x world (failures ++ others) post := by
  have happend : (failures ++ others).findSome? id = others.findSome? id := by
    rw [List.findSome?_append, hnone, Option.none_or]
  cases hx with
  | failed hfirst h => exact .failed (happend.trans hfirst) h
  | succeeded hnone h hpost => exact .succeeded (happend.trans hnone) h hpost

/-- A stage that does not fail may be left out. -/
theorem Checked.cons {post : α → σ → Prop} {failure : Option ConfigError} (hnone : failure = none)
    (hx : Checked x world others post) : Checked x world (failure :: others) post := by
  subst hnone
  exact Checked.append (rfl : [none].findSome? id = (none : Option ConfigError)) hx

/-- Asking the system does not fail. -/
theorem Checked.lift_bind {action : StateM σ α} (hworld : (action.run world).2 = world)
    (hnext : Checked (next (action.run world).1) world others post) :
    Checked (liftM action >>= next) world others post := by
  have h := outcome_lift_bind world action next
  rw [hworld] at h
  cases hnext with
  | failed hfirst hrest => exact .failed hfirst (h.trans hrest)
  | succeeded hnone hrest hpost => exact .succeeded hnone (h.trans hrest) hpost

/-! ### Loaders -/

/-- An extension that is known belongs to a format, and a path with another one is refused. -/
theorem settingsFormat_verdict (path : String) :
    (∃ format, settingsFormat path = .ok format ∧ (Path.extension? path).map (·.map Char.toLower) ∈
        [some ['t', 'o', 'm', 'l'], some ['j', 's', 'o', 'n']]) ∨
      settingsFormat path = .error (.invalid (.settingsExtension path)) ∧
        (Path.extension? path).map (·.map Char.toLower) ∉
          [some ['t', 'o', 'm', 'l'], some ['j', 's', 'o', 'n']] := by
  rw [settingsFormat]
  split
  next h => exact .inl ⟨.toml, rfl, by simp [h]⟩
  next h => exact .inl ⟨.json, rfl, by simp [h]⟩
  next htoml hjson =>
    refine .inr ⟨rfl, fun hmem => ?_⟩
    rcases List.mem_cons.1 hmem with h | h
    · exact htoml h
    · exact hjson (List.mem_singleton.1 h)

/-- The text of a settings file is read in the format of its extension. -/
theorem form_settingsFile {path : String} {format : SettingsFormat}
    (h : settingsFormat path = .ok format) :
    (settingsFile formats path).form = settings? formats format := by
  simp only [settingsFile, h]

section Loaders

variable {host : Host (StateM σ)} (hreads : ∀ path, ((host.readFile path).run world).2 = world)

include hreads

/-- The stages of reading a text. -/
theorem checked_readText (file : SourceFile α) :
    Checked (readText host file.role file.limit file.path) world
      ([.path, .read, .size, .text].map (file.failure? (host.answers world)))
      fun text later => later = world ∧ file.text? (host.answers world) = some text := by
  rw [readText]
  cases hpath : checkPath file.path with
  | error fault => exact .failed (by simp [SourceFile.failure?, hpath]) rfl
  | ok =>
    refine .lift_bind (hreads file.path) ?_
    rw [show ((host.readFile file.path).run world).1 =
      (host.answers world).reads file.path from rfl]
    cases hanswer : (host.answers world).reads file.path with
    | error cause => exact .failed (by simp [SourceFile.failure?, hpath, hanswer]) rfl
    | ok bytes =>
      by_cases hsize : file.limit < bytes.size
      · simp only [hsize, if_true]
        exact .failed (by simp [SourceFile.failure?, hpath, hsize, hanswer]) rfl
      · cases htext : String.fromUTF8? bytes with
        | none =>
          simp only [hsize, if_false, htext]
          exact .failed (by simp [SourceFile.failure?, hpath, hsize, htext, hanswer]) rfl
        | some text =>
          simp only [hsize, if_false, htext]
          exact .succeeded (by simp [SourceFile.failure?, hpath, hsize, htext, hanswer]) rfl
            ⟨rfl, by rw [SourceFile.text?, hanswer]; exact htext⟩

/-- The stages of reading what a file stands for. -/
theorem checked_source (file : SourceFile α) {next : String → LoadM (StateM σ) β}
    (hnone : ∀ text, file.form text = none → next text = throw (.parse file.role))
    (hsome : ∀ text a, file.form text = some a → file.value? (host.answers world) = some a →
      Checked (next text) world others post) :
    Checked (readText host file.role file.limit file.path >>= next) world
      ([.path, .read, .size, .text].map (file.failure? (host.answers world)) ++
        file.failure? (host.answers world) .form :: others) post := by
  refine Checked.bind (checked_readText hreads file) fun text htext => ?_
  cases hform : file.form text with
  | none =>
    rw [hnone text hform]
    exact .failed (by simp [SourceFile.failure?, htext, hform]) rfl
  | some a =>
    have hvalue : file.value? (host.answers world) = some a := by
      rw [SourceFile.value?, htext, Option.bind_some, hform]
    exact .cons (by simp [SourceFile.failure?, htext, hform]) (hsome text a hform hvalue)

/-- The stages of the tables. -/
theorem checked_loadGameData (config : Config) :
    Checked (loadGameData formats host config.gameDataPath) world
      (Stage.ofTables.map (Stage.failure? formats config (host.answers world)))
      fun data later => later = world ∧ data.validate = .ok () := by
  rw [loadGameData]
  refine checked_source hreads (config.tablesFile formats) (fun text hform => ?_)
    fun text data hform hvalue => ?_
  · change gameData? formats text = none at hform
    rw [hform]
    rfl
  · change gameData? formats text = some data at hform
    show Checked _ world [Stage.failure? formats config (host.answers world) .integrity] _
    simp only [hform]
    cases hvalid : data.validate with
    | error e => exact .failed (by simp [Stage.failure?, hvalue, hvalid]) rfl
    | ok => exact .succeeded (by simp [Stage.failure?, hvalue, hvalid]) rfl ⟨rfl, hvalid⟩

/-- The stages of settings. -/
theorem checked_loadSettings {config : Config} {path : String}
    (hpath : config.settingsPath = some path) :
    Checked (loadSettings formats host path) world
      (Stage.ofSettings.map (Stage.failure? formats config (host.answers world)))
      fun settings later => later = world ∧
        (settingsFile formats path).value? (host.answers world) = some settings := by
  have hstages (stage : FileStage) :
      Stage.failure? formats config (host.answers world) (.settings stage) =
        (settingsFile formats path).failure? (host.answers world) stage := by
    rw [Stage.failure?, hpath]
  rw [loadSettings]
  simp only [Stage.ofSettings, List.map_cons, List.map_nil, hstages]
  rcases settingsFormat_verdict path with ⟨format, hformat, hmem⟩ | ⟨hformat, hmem⟩
  · have hextension : Stage.failure? formats config (host.answers world) .extension = none := by
      rw [Stage.failure?, hpath]
      exact if_pos hmem
    rw [hformat]
    refine .cons hextension (checked_source hreads (settingsFile formats path)
      (fun text hform => ?_) fun text settings hform hvalue => ?_)
    · rw [form_settingsFile hformat] at hform
      simp only [hform]
      rfl
    · rw [form_settingsFile hformat] at hform
      simp only [hform]
      exact .succeeded rfl rfl ⟨rfl, hvalue⟩
  · have hextension : Stage.failure? formats config (host.answers world) .extension =
        some (.invalid (.settingsExtension path)) := by
      rw [Stage.failure?, hpath]
      exact if_neg hmem
    rw [hextension, hformat]
    exact .failed rfl rfl

end Loaders

end Loading

end SeedLogic
