import SeedLogic.Proofs.Session.BossMarks

/-!
# Reports of failures

An operation that fails is reported in the log under the name of the audited operation that it is,
or that it goes through, with the text of its error. Expansions report nothing, however deep they
nest, and no audited operation goes through another one, so that there is one report at most. Some
operations go through none: the ones that look up a single entry of the tables, the toggles of
bosses, and the check of a location with a given number of small keys as far as its dungeon is
unknown. Their failures are not reported.

## Main definitions

* `Session.reports` : the reports of a log.
* `Reports` : computations that report their failures under a name, or do not report them.
* `Operation.reporter?` : the name under which an operation reports its failures.
* `Operation.ReportsOnce` : an operation reports a failure exactly once.

## Main results

* `reports_expandAtom` : expansions do not report their failures.
* `Operation.reports_perform` : what an operation reports.
* `Session.reports_after` : what a run reports.
* `failures_reported_once_iff` : failures are reported once exactly by operations with a reporter.
-/

namespace SeedLogic

open Requirement Session

variable {α β : Type}

/-- The reports of failures in the log. -/
def Session.reports (s : Session) : List AuditEvent := s.events.filter (·.isReport)

/-- The reports of a result under a name, if there is one. -/
def reportsOf (reporter : Option String) : Except LogicError α → List AuditEvent
  | .ok _ => []
  | .error e => (reporter.map (AuditEvent.dataIntegrityError · e.message)).toList

/-- The computation reports its failures under a name, or it does not report them. -/
structure Reports (reporter : Option String) (x : Query α) : Prop where
  log (s : Session) : (s.outcome x).2.reports = s.reports ++ reportsOf reporter (s.outcome x).1

/-! ### Steps -/

namespace Reports

variable {reporter : Option String} {x : Query α}

theorem pure (a : α) : Reports reporter (pure a : Query α) :=
  ⟨fun s => (List.append_nil s.reports).symm⟩

theorem throw (e : LogicError) : Reports none (throw e : Query α) :=
  ⟨fun s => (List.append_nil s.reports).symm⟩

theorem get : Reports reporter (get : Query Session) :=
  ⟨fun s => (List.append_nil s.reports).symm⟩

theorem lift (result : Except LogicError α) : Reports none (liftM result : Query α) := by
  cases result with
  | error e => exact throw e
  | ok a => exact pure a

theorem bind {next : α → Query β} (hx : Reports reporter x)
    (hnext : ∀ a, Reports reporter (next a)) : Reports reporter (x >>= next) := by
  refine ⟨fun s => ?_⟩
  have hfirst := hx.log s
  rw [outcome_bind]
  rcases houtcome : s.outcome x with ⟨e | a, t⟩ <;> rw [houtcome] at hfirst
  · exact hfirst
  · have hfirst : t.reports = s.reports := hfirst.trans (List.append_nil s.reports)
    rw [← hfirst]
    exact (hnext a).log t

theorem map (f : α → β) (hx : Reports reporter x) : Reports reporter (f <$> x) := by
  rw [← bind_pure_comp]
  exact hx.bind fun a => pure (f a)

/-- What is audited reports its failures, provided that it does not report them already. -/
theorem audited (operation : String) (hx : Reports none x) :
    Reports (some operation) (audited operation x) := by
  refine ⟨fun s => ?_⟩
  have hsilent := hx.log s
  rw [outcome_audited]
  rcases houtcome : s.outcome x with ⟨e | a, t⟩ <;> rw [houtcome] at hsilent
  · have hsilent : t.reports = s.reports := hsilent.trans (List.append_nil s.reports)
    calc
      (t.recording (.dataIntegrityError operation e.message)).reports =
          t.reports ++ [.dataIntegrityError operation e.message] := by
        rw [Session.reports, events_recording, List.filter_append]
        rfl
      _ = s.reports ++ [.dataIntegrityError operation e.message] := by rw [hsilent]
  · exact hsilent

theorem remember {q : Question} {x : Query q.Answer} (hx : Reports reporter x) :
    Reports reporter (remember q x) := by
  refine ⟨fun s => ?_⟩
  cases hget : s.cache.get? q with
  | some answer =>
    rw [outcome_remember_of_some x hget]
    exact (pure answer).log s
  | none =>
    have hcomputed := hx.log s
    rw [outcome_remember_of_none x hget]
    rcases houtcome : s.outcome x with ⟨e | answer, t⟩ <;> rw [houtcome] at hcomputed <;>
      exact hcomputed

end Reports

/-! ### Expansions and trees -/

/-- Builds do not report their failures when the expansions of atoms do not. -/
theorem reports_buildWith {expand : String → Query Requirement}
    (hexpand : ∀ atom, Reports none (expand atom)) (text : String) :
    Reports none (buildWith expand text) := by
  have hsteps : Sequential (Alone fun _ x => Reports none x) :=
    { pure := Reports.pure, throw := Reports.throw, bind := Reports.bind }
  have hatoms (atom : String) :
      Alone (fun _ x => Reports none x) Requirement (expand atom) fun _ => expand atom :=
    hexpand atom
  exact hsteps.buildWith hatoms text

theorem reports_rawLocationWith {expand : Bool → String → Query Requirement}
    (hexpand : ∀ flattened atom, Reports none (expand flattened atom)) (general detailed : String)
    (flattened : Bool) : Reports none (rawLocationWith expand general detailed flattened) :=
  Reports.remember <| Reports.get.bind fun s =>
    (Reports.lift (s.data.locationEntry general detailed)).bind fun entry =>
      reports_buildWith (hexpand flattened) entry.need

/-- Expansions do not report their failures, however deep these arise. -/
theorem reports_expandAtom (depth : Nat) (flattened : Bool) (atom : String) :
    Reports none (expandAtom depth flattened atom) := by
  induction depth generalizing flattened atom with
  | zero =>
    rw [expandAtom]
    refine Reports.get.bind fun s => (Reports.lift _).bind fun expansion => ?_
    cases expansion with
    | tree r => exact .pure r
    | requirement | location => exact .throw _
  | succ depth ih =>
    rw [expandAtom]
    refine Reports.get.bind fun s => (Reports.lift _).bind fun expansion => ?_
    cases expansion with
    | tree r => exact .pure r
    | requirement text => exact reports_buildWith (ih flattened) text
    | location general detailed flattened =>
      exact reports_rawLocationWith ih general detailed flattened

theorem reports_rawTree (requirement : String) (flattened : Bool) :
    Reports none (rawTree requirement flattened) :=
  reports_buildWith (reports_expandAtom maxExpansionDepth flattened) requirement

theorem reports_rawLocationTree (general detailed : String) (flattened : Bool) :
    Reports none (rawLocationTree general detailed flattened) :=
  reports_rawLocationWith (reports_expandAtom maxExpansionDepth) general detailed flattened

theorem reports_locationTree (general detailed : String) (flattened : Bool) :
    Reports none (locationTree general detailed flattened) :=
  .remember <| (reports_rawLocationTree general detailed flattened).bind fun _ => .pure _

theorem reports_requirementsForEntrance (name : String) :
    Reports (some "requirements_for_entrance") (requirementsForEntrance name) :=
  .audited _ <| .remember <| Reports.get.bind fun s =>
    (Reports.lift (s.data.macroNameOfEntrance name)).bind fun macroName =>
      (reports_rawTree macroName false).bind fun _ => .pure _

theorem reports_smallKeysRequired (general detailed : String) :
    Reports (some "small_keys_required_for_location") (smallKeysRequired general detailed) := by
  refine .audited _ <| .remember <| Reports.get.bind fun s =>
    (Reports.lift (s.maxSmallKeys general)).bind fun maximum =>
      (Reports.lift (s.data.smallKeyName general)).bind fun key =>
        (reports_locationTree general detailed false).bind fun requirements => ?_
  cases requirements.minimumKeys key maximum with
  | none => exact .throw _
  | some count => exact .pure count

/-! ### Charts -/

theorem reports_vanillaChartForIsland (island : String) :
    Reports (some "vanilla_chart_for_island") (vanillaChartForIsland island) :=
  .audited _ <| .remember <| Reports.get.bind fun s => .lift (s.data.vanillaChart island)

/-- Whether an island has a progress chart is reported as the lookup of its chart. -/
theorem reports_islandHasProgressItemChart (island : String) :
    Reports (some "vanilla_chart_for_island") (islandHasProgressItemChart island) := by
  refine .remember <| Reports.get.bind fun s => ?_
  by_cases hshuffled : s.settings.isEnabled OptionName.randomizeCharts = true
  · simp only [if_pos hshuffled]
    exact .remember <| Reports.get.bind fun _ => .pure _
  · simp only [if_neg hshuffled]
    exact (reports_vanillaChartForIsland island).bind fun _ => .pure _

/-! ### Operations -/

/-- The name under which an operation reports its failures, if it does. -/
def Operation.reporter? (data : GameData) : Operation → Option String
  | .requirementsForLocation .. => some "requirements_for_location"
  | .rawRequirementsForLocation .. => some "raw_requirements_for_location"
  | .requirementsForEntrance _ => some "requirements_for_entrance"
  | .buildRequirement .. => some "build_requirement"
  | .smallKeysRequired .. => some "small_keys_required_for_location"
  | .isAvailableWithSmallKeys general .. =>
    if data.isDungeon general then some "requirements_for_location" else none
  | .randomEntrancesForExit _ => some "random_entrances_for_exit"
  | .randomExitsForEntrance _ => some "random_exits_for_entrance"
  | .vanillaChartForIsland _ | .islandHasProgressItemChart _ => some "vanilla_chart_for_island"
  | _ => none

/-- What is recorded without a report leaves the reports. -/
theorem Session.reports_of_events {s t : Session} {recorded : List AuditEvent}
    (hevents : t.events = s.events ++ recorded)
    (hrecorded : ∀ event ∈ recorded, event.isReport = false) : t.reports = s.reports := by
  have hnone : recorded.filter (·.isReport) = [] :=
    List.filter_eq_nil_iff.2 fun event hmem => by simp [hrecorded event hmem]
  rw [reports, hevents, List.filter_append, hnone, List.append_nil]
  rfl

/-- The check of a location reports the failures of its requirements, but not that its dungeon is
unknown. -/
theorem reports_isAvailableWithSmallKeys (general detailed : String) (count : UInt32)
    (held : String → Bool) (s : Session) :
    let operation := Operation.isAvailableWithSmallKeys general detailed count held
    (operation.perform s).2.reports = s.reports ++
      reportsOf (operation.reporter? s.data) (operation.perform s).1 := by
  intro operation
  have hperform : operation.perform s = s.outcome (do
      let key ← s.data.smallKeyName general
      let requirements ← requirementsForLocation general detailed false
      pure (.flag (requirements.availableWithKeys key count held))) := by
    have hquery : operation.query = (do
        let t ← get
        let key ← t.data.smallKeyName general
        let requirements ← requirementsForLocation general detailed false
        pure (.flag (requirements.availableWithKeys key count held))) := by
      simp only [operation, Operation.query, isAvailableWithSmallKeys, map_bind, map_pure]
    exact (congrArg s.outcome hquery).trans (outcome_bind_of_ok _ (outcome_get s))
  rw [hperform, Operation.reporter?, GameData.smallKeyName, GameData.dungeonItemName,
    GameData.dungeonEntry, GameData.isDungeon]
  cases s.data.dungeon? general with
  | none => exact (List.append_nil s.reports).symm
  | some entry =>
    have hrequirements : Reports (some "requirements_for_location")
        (requirementsForLocation general detailed false) :=
      .audited _ (reports_locationTree general detailed false)
    exact (hrequirements.bind fun _ => .pure _).log s

namespace Operation

/-- What an operation records of what it has done holds no reports. -/
private theorem isReport_of_mem_recorded {operation : Operation} {s : Session} {event : AuditEvent}
    (h : event ∈ operation.recorded s) : event.isReport = false := by
  revert event
  cases operation <;> simp [recorded, AuditEvent.isReport]

/-- An operation that is no query reports nothing. -/
private theorem reports_of_isQuery_eq_false {operation : Operation}
    (h : operation.isQuery = false) (s : Session) :
    (operation.perform s).2.reports = s.reports ++
      reportsOf (operation.reporter? s.data) (operation.perform s).1 := by
  have hnone : reportsOf (operation.reporter? s.data) (operation.perform s).1 = [] := by
    have hreporter : operation.reporter? s.data = none := by
      cases operation <;> first | rfl | cases h
    rw [hreporter]
    cases (operation.perform s).1 <;> rfl
  rw [hnone, List.append_nil]
  refine reports_of_events (events_of_isQuery_eq_false h s) fun event hevent => ?_
  split at hevent
  · exact isReport_of_mem_recorded hevent
  · cases hevent

/-- An operation reports its failures under the name of its reporter, and else not at all. -/
theorem reports_perform (operation : Operation) (s : Session) :
    (operation.perform s).2.reports = s.reports ++
      reportsOf (operation.reporter? s.data) (operation.perform s).1 := by
  have hquery {reporter : Option String} (hreports : Reports reporter operation.query)
      (hreporter : reporter = operation.reporter? s.data) :
      (operation.perform s).2.reports = s.reports ++
        reportsOf (operation.reporter? s.data) (operation.perform s).1 :=
    hreporter ▸ hreports.log s
  cases operation with
  | updateSettings | reset | invalidate | cachedEntries | setBossRequired | setBossNotRequired =>
    exact reports_of_isQuery_eq_false rfl s
  | requirementsForLocation general detailed flattened =>
    exact hquery (.map _ (.audited _ (reports_locationTree general detailed flattened))) rfl
  | rawRequirementsForLocation general detailed flattened =>
    exact hquery (.map _ (.audited _ (reports_rawLocationTree general detailed flattened))) rfl
  | requirementsForEntrance entrance =>
    exact hquery (.map _ (reports_requirementsForEntrance entrance)) rfl
  | buildRequirement requirement flattened =>
    exact hquery
      (.map _ (.audited _ ((reports_rawTree requirement flattened).bind fun _ => .pure _))) rfl
  | smallKeysRequired general detailed =>
    exact hquery ((reports_smallKeysRequired general detailed).bind fun _ => .pure _) rfl
  | isAvailableWithSmallKeys general detailed count held =>
    exact reports_isAvailableWithSmallKeys general detailed count held s
  | randomEntrancesForExit exit =>
    exact hquery (.map _ (.audited _ (.remember (Reports.get.bind fun t =>
      .lift (t.pools.entrancesForExit exit))))) rfl
  | randomExitsForEntrance entrance =>
    exact hquery (.map _ (.audited _ (.remember (Reports.get.bind fun t =>
      .lift (t.pools.exitsForEntrance entrance))))) rfl
  | vanillaChartForIsland island =>
    exact hquery (.map _ (reports_vanillaChartForIsland island)) rfl
  | islandHasProgressItemChart island =>
    exact hquery (.map _ (reports_islandHasProgressItemChart island)) rfl
  | maxSmallKeys dungeon =>
    exact hquery (Reports.get.bind fun t => (Reports.lift (t.maxSmallKeys dungeon)).bind fun _ =>
      .pure _) rfl
  | allRandomEntrances | nestedEntrancesForExit | islandForChart | anyProgressItemCharts
  | allCharts | prettyNameForItem | prettyNameForItemRequirement =>
    exact hquery (.map _ (.remember (Reports.get.bind fun _ => .pure _))) rfl
  | _ =>
    -- The rest views the session and gives a value, or a value that may be missing.
    first
      | exact hquery (Reports.get.bind fun _ => .pure _) rfl
      | exact hquery (Reports.get.bind fun _ => .map _ (.lift _)) rfl

/-- A failure of the operation is reported exactly once, with the text of its error, and a success
is not reported. -/
def ReportsOnce (operation : Operation) (s : Session) : Prop :=
  ∃ recorded, (operation.perform s).2.events = s.events ++ recorded ∧
    match (operation.perform s).1 with
    | .ok _ => recorded.filter (·.isReport) = []
    | .error e => ∃ name, recorded.filter (·.isReport) = [.dataIntegrityError name e.message]

/-- Failures are reported once exactly when the operation has a reporter. -/
theorem reportsOnce_iff {operation : Operation} {s : Session} :
    operation.ReportsOnce s ↔ ∀ e, (operation.perform s).1 = .error e →
      (operation.reporter? s.data).isSome = true := by
  obtain ⟨-, -, recorded, hevents, -⟩ := operation.perform_marks s
  have hrecorded : recorded.filter (·.isReport) =
      reportsOf (operation.reporter? s.data) (operation.perform s).1 := by
    have hreports := operation.reports_perform s
    rw [Session.reports, hevents, List.filter_append] at hreports
    exact List.append_cancel_left hreports
  have honly (P : List AuditEvent → Prop) :
      (∃ other, (operation.perform s).2.events = s.events ++ other ∧ P other) ↔ P recorded := by
    constructor
    · rintro ⟨other, hother, h⟩
      exact List.append_cancel_left (hother.symm.trans hevents) ▸ h
    · exact fun h => ⟨recorded, hevents, h⟩
  rw [ReportsOnce, honly, hrecorded]
  cases (operation.perform s).1 with
  | ok reply => exact iff_of_true rfl nofun
  | error e =>
    cases operation.reporter? s.data with
    | none => exact iff_of_false (fun ⟨_, h⟩ => nomatch h) fun h => absurd (h e rfl) nofun
    | some name => exact iff_of_true ⟨name, rfl⟩ fun _ _ => rfl

end Operation

/-- The reports of the operations of a run that fail, in order. -/
def Session.failureReports (s : Session) : List Operation → List AuditEvent
  | [] => []
  | operation :: rest =>
    let (result, t) := operation.perform s
    reportsOf (operation.reporter? s.data) result ++ t.failureReports rest

/-- A run reports the failures of its operations, in order. -/
theorem Session.reports_after (s : Session) (operations : List Operation) :
    (s.after operations).reports = s.reports ++ s.failureReports operations := by
  induction operations generalizing s with
  | nil => exact (List.append_nil s.reports).symm
  | cons operation rest ih =>
    calc
      (s.after (operation :: rest)).reports =
          (operation.perform s).2.reports ++ (operation.perform s).2.failureReports rest := ih _
      _ = s.reports ++ s.failureReports (operation :: rest) := by
        rw [operation.reports_perform s, List.append_assoc]
        rfl

/-- In every session, and so after every run, an operation never reports a success. It reports a
failure exactly once, with the text of its error, if it has a reporter, and else not at all. The
reports in the log of a run are those of the operations that failed in it, in order. -/
theorem failures_reported_once_iff (s : Session) :
    (∀ operation : Operation,
      (operation.ReportsOnce s ↔ ∀ e, (operation.perform s).1 = .error e →
        (operation.reporter? s.data).isSome = true) ∧
      (operation.perform s).2.reports = s.reports ++
        reportsOf (operation.reporter? s.data) (operation.perform s).1) ∧
    ∀ operations : List Operation,
      (s.after operations).reports = s.reports ++ s.failureReports operations :=
  ⟨fun operation => ⟨Operation.reportsOnce_iff, operation.reports_perform s⟩, s.reports_after⟩

/-- That a dungeon is unknown is reported when the keys for a location are asked for, but not when
the location is checked with a number of keys, nor are unknown bosses and entrances reported. -/
theorem unknown_dungeon_not_reported :
    (Session.start {} {}).1 = .ok (initial {} {}) ∧
    let s := initial {} {}
    let check := Operation.isAvailableWithSmallKeys "Nowhere" "Chest" 0 fun _ => false
    (check.perform s).1 = .error (.unknownDungeon "Nowhere") ∧ ¬check.ReportsOnce s ∧
    ((Operation.smallKeysRequired "Nowhere" "Chest").perform s).1 =
      .error (.unknownDungeon "Nowhere") ∧
    (Operation.smallKeysRequired "Nowhere" "Chest").ReportsOnce s ∧
    ¬(Operation.setBossNotRequired "Nowhere").ReportsOnce s ∧
    ¬(Operation.entryName "Nowhere").ReportsOnce s := by
  have hunreported {operation : Operation} {e : LogicError}
      (hfails : (operation.perform (initial {} {})).1 = .error e)
      (hreporter : operation.reporter? {} = none) : ¬operation.ReportsOnce (initial {} {}) := by
    intro h
    have hsome : (operation.reporter? {}).isSome = true := Operation.reportsOnce_iff.1 h e hfails
    rw [hreporter] at hsome
    cases hsome
  exact ⟨start_of_validate {} rfl, rfl, hunreported rfl rfl, rfl,
    Operation.reportsOnce_iff.2 fun _ _ => rfl, hunreported rfl rfl, hunreported rfl rfl⟩

end SeedLogic
