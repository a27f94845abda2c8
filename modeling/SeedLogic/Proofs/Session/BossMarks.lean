import Mathlib.Data.List.Induction
import SeedLogic.CommandLine.Run
import SeedLogic.Proofs.Resolution.Derivation
import SeedLogic.Proofs.Session.Runs

/-!
# The bosses marked as not required

Three things tell which bosses are marked as not required: the set that a session keeps, the log
of what it has recorded, and the operations that it was asked to perform. After every run they
agree. A step adds to the log what it does to the set, so the set is the log replayed. And a step
changes the set only if it is a reset or a toggle that succeeds, so a dungeon is marked exactly if
the last successful toggle for it since the last reset says so. A toggle fails only for a dungeon
without a boss, and then leaves the session as it is.

## Main definitions

* `AuditEvent.mark`, `AuditEvent.replay` : the marks that a log describes.
* `Operation.toggle?`, `lastToggle?` : the marks that operations describe.
* `Session.succeeding` : the operations of a run that succeed.
* `Operation.recorded` : what an operation records of what it has done.
* `Session.withoutBosses` : a session in which the bosses of some dungeons have been marked.

## Main results

* `Operation.events_perform` : what a step records.
* `Operation.perform_marks` : what a step does to the marks, and what its record says of that.
* `Session.Marked.after` : the marks after a run are those of its log and of its operations.
* `boss_marks_replay` : marks, log and operations agree after every run.
-/

namespace SeedLogic

open Session

/-! ### The log -/

/-- The marks after an event. -/
def AuditEvent.mark (marks : NameSet) : AuditEvent → NameSet
  | .bossRequirementChanged dungeon required =>
    if required then marks.erase dungeon else marks.add dungeon
  | .sessionReset => {}
  | _ => marks

/-- The marks that a log describes, from its first event to its last. -/
def AuditEvent.replay (events : List AuditEvent) : NameSet := events.foldl mark {}

/-- What a step puts before the latest entries of the log comes after the earlier events. -/
theorem Session.events_eq_append {s t : Session} {recorded : List AuditEvent}
    (h : t.log = recorded.reverse ++ s.log) : t.events = s.events ++ recorded := by
  rw [events, h, List.reverse_append, List.reverse_reverse]
  rfl

/-- Reports do not concern the marks. -/
theorem AuditEvent.foldl_mark_of_isReport {events : List AuditEvent}
    (h : ∀ event ∈ events, event.isReport = true) (marks : NameSet) :
    events.foldl mark marks = marks := by
  induction events generalizing marks with
  | nil => rfl
  | cons event rest ih =>
    obtain ⟨hevent, hrest⟩ := List.forall_mem_cons.1 h
    have hmark : mark marks event = marks := by
      cases event <;> first | rfl | exact absurd hevent (by simp [isReport])
    rw [List.foldl_cons, hmark, ih hrest]

/-! ### The operations -/

namespace Operation

/-- The dungeon for which an operation toggles the boss, and whether it then is required. -/
def toggle? : Operation → Option (String × Bool)
  | .setBossRequired dungeon => some (dungeon, true)
  | .setBossNotRequired dungeon => some (dungeon, false)
  | _ => none

/-- Whether an operation is a reset. -/
def isReset : Operation → Bool
  | .reset => true
  | _ => false

/-- The marks after an operation that succeeds. -/
def remark (operation : Operation) (marks : NameSet) : NameSet :=
  match operation.toggle? with
  | some (dungeon, required) => if required then marks.erase dungeon else marks.add dungeon
  | none => if operation.isReset then {} else marks

end Operation

/-- What the last toggle for a dungeon since the last reset says. -/
def lastToggle? (performed : List Operation) (dungeon : String) : Option Bool :=
  ((performed.reverse.takeWhile (!·.isReset)).filterMap Operation.toggle?).lookup dungeon

/-- The operations of a run that succeed. -/
def Session.succeeding (s : Session) : List Operation → List Operation
  | [] => []
  | operation :: rest =>
    let (result, t) := operation.perform s
    if result.isOk then operation :: t.succeeding rest else t.succeeding rest

/-! ### One step -/

/-- A dungeon has a boss exactly when the table of required bosses names one. -/
theorem GameData.exists_bossRequirement_iff {data : GameData} {dungeon : String} :
    (∃ requirement, data.bossRequirement dungeon = .ok requirement) ↔
      ∃ boss ∈ data.requiredBosses, boss.dungeon = dungeon := by
  rw [bossRequirement, bossOfDungeon?]
  cases hfind : data.requiredBosses.find? (·.dungeon = dungeon) with
  | none =>
    refine ⟨nofun, fun ⟨boss, hboss, hdungeon⟩ => ?_⟩
    exact absurd (decide_eq_true hdungeon) (List.find?_eq_none.1 hfind boss hboss)
  | some boss =>
    refine ⟨fun _ => ⟨boss, List.mem_of_find?_eq_some hfind, ?_⟩, fun _ => ⟨_, rfl⟩⟩
    simpa using List.find?_some hfind

namespace Operation

/-- A toggle succeeds exactly when the dungeon has a boss, and else changes nothing. -/
theorem perform_of_toggle? {operation : Operation} {dungeon : String} {required : Bool}
    (h : operation.toggle? = some (dungeon, required)) (s : Session) :
    operation.perform s =
      match s.data.bossRequirement dungeon with
      | .ok _ => (.ok .done, s.marking dungeon required)
      | .error e => (.error e, s) := by
  have hperform : operation.perform s = s.outcome (do
      setBoss dungeon required
      pure .done) := by
    cases operation <;> cases h <;> rfl
  rw [hperform, outcome_bind, outcome_setBoss]
  cases s.data.bossRequirement dungeon <;> rfl

/-- The operations that are no toggles leave the marks unless they are a reset. -/
theorem perform_of_toggle?_eq_none {operation : Operation} (h : operation.toggle? = none)
    (s : Session) :
    (operation.perform s).2.data = s.data ∧
    (operation.perform s).2.notRequired = operation.remark s.notRequired := by
  by_cases hquery : operation.isQuery = true
  · have hmark : operation.remark s.notRequired = s.notRequired := by
      cases operation <;> first | rfl | exact absurd hquery (by simp [isQuery])
    obtain ⟨hview, -⟩ := operation.onlyReports hquery s
    rw [hmark]
    exact ⟨congrArg (fun view => view.data) hview, congrArg (fun view => view.notRequired) hview⟩
  · cases operation with
    | updateSettings | reset | invalidate | cachedEntries => exact ⟨rfl, rfl⟩
    | setBossRequired | setBossNotRequired => cases h
    | _ => exact absurd rfl hquery

/-- What an operation records of what it has done, if it succeeds. -/
def recorded (s : Session) : Operation → List AuditEvent
  | .updateSettings _ => [.settingsUpdated, .cacheInvalidated .all (s.cache.dropped .all)]
  | .reset => [.sessionReset, .cacheInvalidated .all (s.cache.dropped .all)]
  | .invalidate scope => [.cacheInvalidated scope (s.cache.dropped scope)]
  | .setBossRequired dungeon =>
    [.bossRequirementChanged dungeon true,
      .cacheInvalidated .bossDependent (s.cache.dropped .bossDependent)]
  | .setBossNotRequired dungeon =>
    [.bossRequirementChanged dungeon false,
      .cacheInvalidated .bossDependent (s.cache.dropped .bossDependent)]
  | _ => []

/-- An operation that is no query records what it has done, and nothing if it fails. -/
theorem events_of_isQuery_eq_false {operation : Operation} (h : operation.isQuery = false)
    (s : Session) :
    (operation.perform s).2.events = s.events ++
      if (operation.perform s).1.isOk then operation.recorded s else [] := by
  have htoggled {dungeon : String} {required : Bool}
      (htoggle : operation.toggle? = some (dungeon, required))
      (hrecorded : operation.recorded s = [.bossRequirementChanged dungeon required,
        .cacheInvalidated .bossDependent (s.cache.dropped .bossDependent)]) :
      (operation.perform s).2.events = s.events ++
        if (operation.perform s).1.isOk then operation.recorded s else [] := by
    rw [perform_of_toggle? htoggle, hrecorded]
    cases s.data.bossRequirement dungeon <;> exact events_eq_append rfl
  cases operation with
  | updateSettings | reset | invalidate | cachedEntries => exact events_eq_append rfl
  | setBossRequired | setBossNotRequired => exact htoggled rfl rfl
  | _ => cases h

/-- An operation records what it has done, if it succeeds, and else nothing but reports. -/
theorem events_perform (operation : Operation) (s : Session) :
    ∃ reports : List AuditEvent, (∀ event ∈ reports, event.isReport = true) ∧
      (operation.perform s).2.events = s.events ++
        (if (operation.perform s).1.isOk then operation.recorded s else []) ++ reports := by
  cases hquery : operation.isQuery with
  | true =>
    obtain ⟨-, reports, hreports, hevents⟩ := operation.onlyReports hquery s
    have hnone : operation.recorded s = [] := by
      cases operation <;> first | rfl | cases hquery
    exact ⟨reports, hreports, by rw [hnone, ite_self, List.append_nil]; exact hevents⟩
  | false =>
    exact ⟨[], by simp, by rw [events_of_isQuery_eq_false hquery, List.append_nil]⟩

/-- What an operation records of what it has done says what it does to the marks. -/
theorem foldl_mark_recorded (operation : Operation) (s : Session) (marks : NameSet) :
    (operation.recorded s).foldl AuditEvent.mark marks = operation.remark marks := by
  cases operation <;> rfl

/-- What a step does to the marks: it leaves them unless it succeeds and is a reset or a toggle,
and what it records says the same. -/
theorem perform_marks (operation : Operation) (s : Session) :
    (operation.perform s).2.data = s.data ∧
    (operation.perform s).2.notRequired =
      (if (operation.perform s).1.isOk then operation.remark s.notRequired
        else s.notRequired) ∧
    ∃ recorded, (operation.perform s).2.events = s.events ++ recorded ∧
      recorded.foldl AuditEvent.mark s.notRequired = (operation.perform s).2.notRequired := by
  have hstep : (operation.perform s).2.data = s.data ∧
      (operation.perform s).2.notRequired =
        if (operation.perform s).1.isOk then operation.remark s.notRequired
          else s.notRequired := by
    cases htoggle : operation.toggle? with
    | none =>
      obtain ⟨hdata, hmarks⟩ := perform_of_toggle?_eq_none htoggle s
      refine ⟨hdata, hmarks.trans ?_⟩
      -- Of these only a reset changes the marks, and a reset succeeds.
      cases operation <;> first | rfl | exact (ite_self _).symm | cases htoggle
    | some toggle =>
      obtain ⟨dungeon, required⟩ := toggle
      rw [perform_of_toggle? htoggle, remark, htoggle]
      cases s.data.bossRequirement dungeon <;> exact ⟨rfl, rfl⟩
  obtain ⟨hdata, hmarks⟩ := hstep
  obtain ⟨reports, hreports, hevents⟩ := operation.events_perform s
  refine ⟨hdata, hmarks, _, hevents.trans (List.append_assoc _ _ _), ?_⟩
  rw [List.foldl_append, AuditEvent.foldl_mark_of_isReport hreports, hmarks]
  cases (operation.perform s).1.isOk with
  | false => rfl
  | true => exact operation.foldl_mark_recorded s s.notRequired

end Operation

/-! ### Runs -/

/-- One more operation is the last one unless it does not concern the dungeon. -/
theorem lastToggle?_concat (performed : List Operation) (operation : Operation)
    (dungeon : String) :
    lastToggle? (performed ++ [operation]) dungeon =
      if operation.isReset then none
      else match operation.toggle? with
        | some (toggled, required) =>
          if dungeon = toggled then some required else lastToggle? performed dungeon
        | none => lastToggle? performed dungeon := by
  rw [lastToggle?, List.reverse_append, List.reverse_singleton, List.singleton_append,
    List.takeWhile_cons]
  cases hreset : operation.isReset with
  | true => rfl
  | false =>
    simp only [Bool.not_false, if_true, List.filterMap_cons]
    cases htoggle : operation.toggle? with
    | none => rfl
    | some toggle =>
      obtain ⟨toggled, required⟩ := toggle
      simp only [List.lookup_cons]
      by_cases h : dungeon = toggled
      · simp [h]
      · simp [h, lastToggle?, beq_eq_false_iff_ne.2 h]

/-- A step changes the marks as the operations describe. -/
theorem Operation.contains_remark {marks : NameSet} {performed : List Operation}
    (h : ∀ dungeon, marks.contains dungeon = true ↔
      lastToggle? performed dungeon = some false) (operation : Operation) (dungeon : String) :
    (operation.remark marks).contains dungeon = true ↔
      lastToggle? (performed ++ [operation]) dungeon = some false := by
  rw [lastToggle?_concat, remark]
  cases htoggle : operation.toggle? with
  | none =>
    cases operation.isReset with
    | true => exact ⟨nofun, nofun⟩
    | false => exact h dungeon
  | some toggle =>
    obtain ⟨toggled, required⟩ := toggle
    have hreset : operation.isReset = false := by
      cases operation <;> first | rfl | cases htoggle
    simp only [hreset, Bool.false_eq_true, if_false]
    by_cases heq : dungeon = toggled <;> cases required <;> simp [heq, h]

/-- A step marks no boss but that of the dungeon it toggles. -/
theorem Operation.contains_of_remark {marks : NameSet} {operation : Operation} {dungeon : String}
    (h : (operation.remark marks).contains dungeon = true) :
    marks.contains dungeon = true ∨ operation.toggle? = some (dungeon, false) := by
  rw [remark] at h
  cases htoggle : operation.toggle? with
  | none =>
    rw [htoggle] at h
    cases hreset : operation.isReset with
    | true => exact absurd (hreset ▸ h) nofun
    | false => exact Or.inl (by simpa [hreset] using h)
  | some toggle =>
    obtain ⟨toggled, required⟩ := toggle
    rw [htoggle] at h
    by_cases heq : dungeon = toggled <;> cases required <;> simp_all

/-- The operations of a longer run that succeed. -/
theorem Session.succeeding_concat (s : Session) (operations : List Operation)
    (operation : Operation) :
    s.succeeding (operations ++ [operation]) =
      s.succeeding operations ++
        if (operation.perform (s.after operations)).1.isOk then [operation] else [] := by
  induction operations generalizing s with
  | nil => rfl
  | cons first rest ih =>
    rw [List.cons_append, succeeding, succeeding]
    simp only [ih]
    cases (first.perform s).1.isOk <;> rfl

/-- A session whose marks are those that its log and the operations performed so far describe, and
concern only dungeons that have a boss. -/
structure Session.Marked (data : GameData) (performed : List Operation) (s : Session) : Prop where
  tables : s.data = data
  logged : s.notRequired = AuditEvent.replay s.events
  toggled (dungeon : String) :
    s.notRequired.contains dungeon = true ↔ lastToggle? performed dungeon = some false
  bosses (dungeon : String) :
    s.notRequired.contains dungeon = true → ∃ boss ∈ data.requiredBosses, boss.dungeon = dungeon

namespace Session.Marked

variable {data : GameData} {performed : List Operation} {s : Session}

/-- A session starts without marks. -/
theorem of_start {settings : Settings} (h : (start settings data).1 = .ok s) :
    Marked data [] s := by
  obtain rfl : initial settings data = s := by
    rw [start_of_validate settings (validate_of_start h)] at h
    exact Except.ok.inj h
  exact ⟨rfl, rfl, fun dungeon => ⟨nofun, nofun⟩, fun dungeon => nofun⟩

/-- Every operation keeps marks, log and operations in agreement. -/
theorem perform (h : Marked data performed s) (operation : Operation) :
    Marked data
      (performed ++ if (operation.perform s).1.isOk then [operation] else [])
      (operation.perform s).2 := by
  obtain ⟨hdata, hmarks, recorded, hevents, hrecorded⟩ := operation.perform_marks s
  have hlogged : (operation.perform s).2.notRequired =
      AuditEvent.replay (operation.perform s).2.events := by
    rw [hevents, AuditEvent.replay, List.foldl_append, ← hrecorded, h.logged]
    rfl
  cases hok : (operation.perform s).1.isOk with
  | false =>
    rw [hok] at hmarks
    have hmarks : (operation.perform s).2.notRequired = s.notRequired := hmarks
    refine ⟨hdata.trans h.tables, hlogged, fun dungeon => ?_, fun dungeon hmarked => ?_⟩
    · rw [hmarks, h.toggled]
      simp
    · exact h.bosses dungeon (hmarks ▸ hmarked)
  | true =>
    rw [hok] at hmarks
    have hmarks : (operation.perform s).2.notRequired = operation.remark s.notRequired := hmarks
    refine ⟨hdata.trans h.tables, hlogged, fun dungeon => ?_, fun dungeon hmarked => ?_⟩
    · rw [hmarks]
      exact operation.contains_remark h.toggled dungeon
    · rcases operation.contains_of_remark (hmarks ▸ hmarked) with hbefore | htoggle
      · exact h.bosses dungeon hbefore
      · rw [← h.tables, ← GameData.exists_bossRequirement_iff]
        rw [Operation.perform_of_toggle? htoggle] at hok
        cases hboss : s.data.bossRequirement dungeon with
        | ok requirement => exact ⟨requirement, rfl⟩
        | error e =>
          rw [hboss] at hok
          cases hok

/-- After every run, marks, log and operations agree. -/
theorem after {settings : Settings} {start : Session}
    (hstart : (Session.start settings data).1 = .ok start) (operations : List Operation) :
    Marked data (start.succeeding operations) (start.after operations) := by
  -- Induction on the last operation: what it does depends on the session before it.
  induction operations using List.reverseRecOn with
  | nil => exact of_start hstart
  | append_singleton operations operation ih =>
    rw [succeeding_concat, after_append]
    exact ih.perform operation

end Session.Marked

/-! ### Marking several bosses -/

/-- What the steps of a query keep is kept by the answer to a command. -/
theorem Compositional.command {P : (α : Type) → Query α → Prop} (h : Compositional P)
    (config : Config) (command : CommandLine.Command) :
    P Datum (CommandLine.answer config command) := by
  cases command with
  | location general detailed flattened raw =>
    cases raw with
    | false =>
      exact h.bind (h.audited _ (h.locationTree general detailed flattened)) fun _ => h.pure _
    | true =>
      exact h.bind (h.audited _ (h.rawLocationTree general detailed flattened)) fun _ => h.pure _
  | entrance name => exact h.bind (h.requirementsForEntrance name) fun _ => h.pure _
  | smallKeys general detailed =>
    exact h.bind (h.smallKeysRequired general detailed) fun _ => h.pure _
  | entrancesForExit exit =>
    exact h.bind (h.audited _ (h.answered (.entrancesForExit exit))) fun _ => h.pure _
  | exitsForEntrance entrance =>
    exact h.bind (h.audited _ (h.answered (.exitsForEntrance entrance))) fun _ => h.pure _
  | maxCount item => exact h.viewing (fun s => h.pure _) fun _ => rfl
  | parse requirement flattened =>
    exact h.bind (h.audited _ (h.bind (h.rawTree requirement flattened) fun _ => h.pure _))
      fun _ => h.pure _
  | validateConfig => exact h.pure _

/-- The session after the bosses of some dungeons have been marked as not required, in order. -/
def Session.withoutBosses (s : Session) (dungeons : List String) : Session :=
  s.after (dungeons.map .setBossNotRequired)

/-- The dungeons have bosses. -/
def GameData.HaveBosses (data : GameData) (dungeons : List String) : Prop :=
  ∀ dungeon ∈ dungeons, ∃ boss ∈ data.requiredBosses, boss.dungeon = dungeon

section Several

variable {s : Session}

/-- Marking the boss of one more dungeon. -/
private theorem withoutBosses_cons {dungeon : String} {rest : List String}
    (h : s.data.HaveBosses (dungeon :: rest)) :
    s.outcome (setBoss dungeon false) = (.ok (), s.marking dungeon false) ∧
      s.withoutBosses (dungeon :: rest) = (s.marking dungeon false).withoutBosses rest ∧
      (s.marking dungeon false).data.HaveBosses rest := by
  obtain ⟨requirement, hboss⟩ :=
    GameData.exists_bossRequirement_iff.2 (h dungeon List.mem_cons_self)
  have hmark : s.outcome (setBoss dungeon false) = (.ok (), s.marking dungeon false) := by
    rw [outcome_setBoss, hboss]
  have hperform :
      ((Operation.setBossNotRequired dungeon).perform s).2 = s.marking dungeon false := by
    rw [Operation.perform_of_toggle? rfl, hboss]
  refine ⟨hmark, ?_, fun other hother => h other (List.mem_cons_of_mem dungeon hother)⟩
  rw [← hperform]
  rfl

/-- The dungeons of a list are marked in addition to those marked before. -/
theorem contains_withoutBosses {dungeons : List String} (h : s.data.HaveBosses dungeons)
    (dungeon : String) :
    (s.withoutBosses dungeons).notRequired.contains dungeon =
      (s.notRequired.contains dungeon || decide (dungeon ∈ dungeons)) := by
  induction dungeons generalizing s with
  | nil => simp [withoutBosses, Session.after]
  | cons first rest ih =>
    obtain ⟨-, hrest, hbosses⟩ := withoutBosses_cons h
    have hmarked : (s.marking first false).notRequired = s.notRequired.add first := rfl
    rw [hrest, ih hbosses, hmarked]
    by_cases heq : dungeon = first <;> simp [heq]

/-- Lists of the same dungeons mark the same bosses, whatever their order and repetitions. -/
theorem notRequired_withoutBosses_congr {dungeons others : List String}
    (h : s.data.HaveBosses dungeons)
    (hsame : ∀ dungeon, dungeon ∈ dungeons ↔ dungeon ∈ others) :
    (s.withoutBosses dungeons).notRequired = (s.withoutBosses others).notRequired := by
  have hothers : s.data.HaveBosses others := fun dungeon hdungeon =>
    h dungeon ((hsame dungeon).2 hdungeon)
  refine NameSet.ext_contains fun dungeon => ?_
  rw [contains_withoutBosses h, contains_withoutBosses hothers, decide_eq_decide.2 (hsame dungeon)]

/-- Bosses that are marked before a command is answered are marked as by the operations. -/
theorem outcome_answerWithout {dungeons : List String} (h : s.data.HaveBosses dungeons)
    (config : Config) (command : CommandLine.Command) :
    s.outcome (CommandLine.answerWithout config dungeons command) =
      (s.withoutBosses dungeons).outcome (CommandLine.answer config command) := by
  induction dungeons generalizing s with
  | nil => rfl
  | cons first rest ih =>
    obtain ⟨hmark, hrest, hbosses⟩ := withoutBosses_cons h
    have hsplit : CommandLine.answerWithout config (first :: rest) command = (do
        setBoss first false
        CommandLine.answerWithout config rest command) := by
      simp [CommandLine.answerWithout]
    rw [hsplit, outcome_bind_of_ok _ hmark, ih hbosses, hrest]

end Several

/-- After every run the marked dungeons are those whose last successful toggle since the last reset
marks them, they all have bosses, and the log replayed gives the same set. What is neither a toggle
nor a reset leaves the set, and a toggle that fails leaves the whole session. So the bosses that a
list of dungeons marks, by operations or before a command, depend on its members alone. -/
theorem boss_marks_replay {settings : Settings} {data : GameData} {start : Session}
    (hstart : (Session.start settings data).1 = .ok start) (operations : List Operation) :
    let s := start.after operations
    (∀ dungeon, s.notRequired.contains dungeon = true ↔
      lastToggle? (start.succeeding operations) dungeon = some false) ∧
    (∀ dungeon, s.notRequired.contains dungeon = true →
      ∃ boss ∈ data.requiredBosses, boss.dungeon = dungeon) ∧
    s.notRequired = AuditEvent.replay s.events ∧
    (∀ operation : Operation, operation.toggle? = none → operation.isReset = false →
      (operation.perform s).2.notRequired = s.notRequired) ∧
    (∀ (operation : Operation) (e : LogicError), operation.toggle?.isSome = true →
      (operation.perform s).1 = .error e → (operation.perform s).2 = s) ∧
    ∀ dungeons others : List String, data.HaveBosses dungeons →
      (∀ dungeon, dungeon ∈ dungeons ↔ dungeon ∈ others) →
      (s.withoutBosses dungeons).notRequired = (s.withoutBosses others).notRequired ∧
      ∀ config command,
        (s.outcome (CommandLine.answerWithout config dungeons command)).2.notRequired =
          (s.withoutBosses dungeons).notRequired := by
  intro s
  have hmarked := Marked.after hstart operations
  refine ⟨hmarked.toggled, hmarked.bosses, hmarked.logged, ?_, ?_, ?_⟩
  · intro operation htoggle hreset
    obtain ⟨-, hmarks⟩ := Operation.perform_of_toggle?_eq_none htoggle s
    rw [hmarks, Operation.remark, htoggle, hreset]
    rfl
  · intro operation e htoggle hfails
    obtain ⟨⟨dungeon, required⟩, htoggle⟩ := Option.isSome_iff_exists.1 htoggle
    rw [Operation.perform_of_toggle? htoggle] at hfails ⊢
    cases hboss : s.data.bossRequirement dungeon with
    | error e => rfl
    | ok requirement =>
      rw [hboss] at hfails
      cases hfails
  · intro dungeons others hbosses hsame
    rw [← hmarked.tables] at hbosses
    refine ⟨notRequired_withoutBosses_congr hbosses hsame, fun config command => ?_⟩
    rw [outcome_answerWithout hbosses]
    obtain ⟨hview, -⟩ :=
      onlyReports_compositional.command config command (s.withoutBosses dungeons)
    exact congrArg (fun view => view.notRequired) hview

theorem boss_marks_replay_keep :
    (Session.start {} keep).1 = .ok (initial {} keep) ∧
    let s := (initial {} keep).after
      [.setBossNotRequired "Keep", .setBossNotRequired "Tower", .updateSettings {}]
    s.notRequired.contains "Keep" = true ∧
    ((Operation.invalidate .all).perform s).2.notRequired = s.notRequired ∧
    ((Operation.setBossRequired "Tower").perform s).2 = s ∧
    (s.withoutBosses ["Keep", "Keep"]).notRequired = (s.withoutBosses ["Keep"]).notRequired :=
  have hstart : (Session.start {} keep).1 = .ok (initial {} keep) :=
    start_of_validate {} (by decide +kernel)
  have hbosses : keep.HaveBosses ["Keep", "Keep"] := fun dungeon hdungeon =>
    ⟨{ dungeon := "Keep", requirement := "Can Defeat Warden" }, by decide, by
      simpa [eq_comm] using hdungeon⟩
  have ⟨htoggled, _, _, hothers, hfails, hseveral⟩ := boss_marks_replay hstart
    [.setBossNotRequired "Keep", .setBossNotRequired "Tower", .updateSettings {}]
  ⟨hstart, (htoggled "Keep").2 (by decide +kernel), hothers _ rfl rfl,
    hfails (.setBossRequired "Tower") (.unknownRequiredBoss "Tower") rfl (by decide +kernel),
    (hseveral ["Keep", "Keep"] ["Keep"] hbosses (by simp)).1⟩

end SeedLogic
