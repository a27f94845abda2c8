import SeedLogic.Session.Locations
import SeedLogic.Tables.Integrity
import SeedLogic.Tables.Lookup

/-!
# Tables that pass their integrity check

The integrity check accepts exactly the intact tables. A table whose names must be unique is scanned
along with the names that have been seen: the remaining names must differ from each other and from
those. In intact tables an entrance is found under its internal name, its macro exists, and a boss
is found under its atom.

## Main definitions

* `GameData.Intact` : tables whose names are unique and whose references lead somewhere.

## Main results

* `GameData.validate_eq_ok_iff` : the check accepts exactly the intact tables.
* `GameData.Intact.entrance?_internalName` : entrances are found under their names.
* `GameData.Intact.macroNameOfEntrance_eq` : entrances have their macros.
* `GameData.Intact.bossOfRequirement?_requirement` : bosses are found under their atoms.
-/

namespace SeedLogic.GameData

/-- Tables whose names are unique and whose references to each other lead somewhere. -/
structure Intact (data : GameData) : Prop where
  entranceNames : (data.entrances.map (·.internalName)).Nodup
  /-- The macro of every entrance exists. -/
  entranceMacros : ∀ entry ∈ data.entrances, (data.macroText? entry.macroName).isSome = true
  dungeonNames : (data.dungeons.map (·.name)).Nodup
  /-- Exits and the entrances nested behind them are entrances of the table. -/
  nesting : ∀ group ∈ data.nestedEntrances.entries, ∀ name ∈ group.1 :: group.2,
    (data.entrance? name).isSome = true
  bossAtoms : (data.requiredBosses.map (·.requirement)).Nodup
  bossDungeons : ∀ boss ∈ data.requiredBosses, data.isDungeon boss.dungeon = true
  /-- Dungeons of the remaining tables are dungeons of the dungeon table. -/
  otherDungeons : ∀ name ∈ data.nonMainDungeons.keys ++ data.bossLocationOverrides.keys,
    data.isDungeon name = true
  chartCount : data.charts.length = data.islands.length

/-! ### Single checks -/

section Check

variable {failed : Prop} [Decidable failed] {e : LogicError} {check next : Except LogicError Unit}

/-- A check passes when it does not fail and what comes after it passes. -/
private theorem ite_throw_eq_ok_iff {after : Unit → Except LogicError Unit} :
    (if failed then throw e >>= after else next) = .ok () ↔ ¬failed ∧ next = .ok () := by
  by_cases hfailed : failed
  · rw [if_pos hfailed]
    exact ⟨nofun, fun h => absurd hfailed h.1⟩
  · rw [if_neg hfailed]
    exact ⟨fun h => ⟨hfailed, h⟩, And.right⟩

/-- Checks in a row pass when all of them do. -/
private theorem bind_eq_ok_iff :
    (check >>= fun _ => next) = .ok () ↔ check = .ok () ∧ next = .ok () := by
  cases check with
  | error e => exact ⟨nofun, fun h => absurd h.1 nofun⟩
  | ok _ => exact ⟨fun h => ⟨rfl, h⟩, And.right⟩

end Check

/-! ### Scans for repeated names -/

/-- The names differ from each other and from those that have been seen. -/
private def Fresh (seen names : List String) : Prop :=
  names.Nodup ∧ ∀ name ∈ names, name ∉ seen

private theorem fresh_nil_left {names : List String} : Fresh [] names ↔ names.Nodup :=
  ⟨And.left, fun h => ⟨h, fun _ _ => List.not_mem_nil⟩⟩

private theorem fresh_cons {seen names : List String} {name : String} :
    Fresh seen (name :: names) ↔ name ∉ seen ∧ Fresh (name :: seen) names := by
  constructor
  · rintro ⟨hnodup, hseen⟩
    obtain ⟨hname, hnames⟩ := List.nodup_cons.1 hnodup
    obtain ⟨hfresh, hrest⟩ := List.forall_mem_cons.1 hseen
    refine ⟨hfresh, hnames, fun other hother hmem => ?_⟩
    rcases List.mem_cons.1 hmem with rfl | hmem
    · exact hname hother
    · exact hrest other hother hmem
  · rintro ⟨hfresh, hnames, hrest⟩
    have hname : name ∉ names := fun hmem => hrest name hmem List.mem_cons_self
    refine ⟨List.nodup_cons.2 ⟨hname, hnames⟩, List.forall_mem_cons.2 ⟨hfresh, ?_⟩⟩
    exact fun other hother hmem => hrest other hother (List.mem_cons_of_mem name hmem)

variable {data : GameData}

private theorem checkEntrances_eq_ok_iff {entries : List EntranceEntry} {seen : List String} :
    data.checkEntrances seen entries = .ok () ↔
      Fresh seen (entries.map (·.internalName)) ∧
        ∀ entry ∈ entries, (data.macroText? entry.macroName).isSome = true := by
  induction entries generalizing seen with
  | nil => exact ⟨fun _ => ⟨⟨.nil, nofun⟩, nofun⟩, fun _ => rfl⟩
  | cons entry rest ih =>
    rw [checkEntrances, ite_throw_eq_ok_iff, ite_throw_eq_ok_iff, ih, List.map_cons, fresh_cons,
      List.forall_mem_cons, List.contains_iff_mem, Bool.not_eq_true, Option.isNone_eq_false_iff]
    exact and_assoc.symm.trans and_and_and_comm

private theorem checkDungeons_eq_ok_iff {entries : List DungeonEntry} {seen : List String} :
    checkDungeons seen entries = .ok () ↔ Fresh seen (entries.map (·.name)) := by
  induction entries generalizing seen with
  | nil => exact ⟨fun _ => ⟨.nil, nofun⟩, fun _ => rfl⟩
  | cons entry rest ih =>
    rw [checkDungeons, ite_throw_eq_ok_iff, ih, List.map_cons, fresh_cons, List.contains_iff_mem]

private theorem checkBosses_eq_ok_iff {entries : List RequiredBoss} {seen : List String} :
    data.checkBosses seen entries = .ok () ↔
      Fresh seen (entries.map (·.requirement)) ∧
        ∀ boss ∈ entries, data.isDungeon boss.dungeon = true := by
  induction entries generalizing seen with
  | nil => exact ⟨fun _ => ⟨⟨.nil, nofun⟩, nofun⟩, fun _ => rfl⟩
  | cons boss rest ih =>
    rw [checkBosses, ite_throw_eq_ok_iff, ite_throw_eq_ok_iff, ih, List.map_cons, fresh_cons,
      List.forall_mem_cons, List.contains_iff_mem, Bool.not_eq_true, Option.isNone_eq_false_iff,
      isDungeon]
    exact and_left_comm.trans (and_assoc.symm.trans and_and_and_comm)

/-! ### References -/

/-- No name is found to be missing when all of them are listed. -/
private theorem find?_isNone_eq_none_iff {α : Type} {lookup : String → Option α}
    {names : List String} :
    (names.find? fun name => (lookup name).isNone) = none ↔
      ∀ name ∈ names, (lookup name).isSome = true := by
  simp only [List.find?_eq_none, Bool.not_eq_true, Option.isNone_eq_false_iff]

private theorem checkNesting_eq_ok_iff {groups : List (String × List String)} :
    data.checkNesting groups = .ok () ↔
      ∀ group ∈ groups, ∀ name ∈ group.1 :: group.2, (data.entrance? name).isSome = true := by
  induction groups with
  | nil => exact ⟨fun _ => nofun, fun _ => rfl⟩
  | cons group rest ih =>
    obtain ⟨exit, nested⟩ := group
    rw [checkNesting, ite_throw_eq_ok_iff, List.forall_mem_cons, List.forall_mem_cons, ← ih,
      ← find?_isNone_eq_none_iff, Bool.not_eq_true, Option.isNone_eq_false_iff]
    cases nested.find? fun name => (data.entrance? name).isNone with
    | none => simp
    | some missing => simp [throw, throwThe, MonadExceptOf.throw]

/-- The check accepts exactly the intact tables. -/
theorem validate_eq_ok_iff : data.validate = .ok () ↔ data.Intact := by
  rw [validate, bind_eq_ok_iff, bind_eq_ok_iff, bind_eq_ok_iff, bind_eq_ok_iff,
    checkEntrances_eq_ok_iff, checkDungeons_eq_ok_iff, checkNesting_eq_ok_iff,
    checkBosses_eq_ok_iff, fresh_nil_left, fresh_nil_left, fresh_nil_left]
  have hothers : (data.nonMainDungeons.keys ++ data.bossLocationOverrides.keys).find?
      (fun name => (data.dungeon? name).isNone) = none ↔
      ∀ name ∈ data.nonMainDungeons.keys ++ data.bossLocationOverrides.keys,
        data.isDungeon name = true := find?_isNone_eq_none_iff
  constructor
  · rintro ⟨⟨hnames, hmacros⟩, hdungeons, hnesting, ⟨hatoms, hbosses⟩, hrest⟩
    have hnone : (data.nonMainDungeons.keys ++ data.bossLocationOverrides.keys).find?
        (fun name => (data.dungeon? name).isNone) = none := by
      refine Option.eq_none_iff_forall_ne_some.2 fun missing hmissing => ?_
      rw [hmissing] at hrest
      exact absurd hrest nofun
    rw [hnone] at hrest
    have hcharts : data.charts.length = data.islands.length :=
      Decidable.of_not_not fun hne => absurd ((if_pos hne).symm.trans hrest) nofun
    exact ⟨hnames, hmacros, hdungeons, hnesting, hatoms, hbosses, hothers.1 hnone, hcharts⟩
  · rintro ⟨hnames, hmacros, hdungeons, hnesting, hatoms, hbosses, hlisted, hcharts⟩
    refine ⟨⟨hnames, hmacros⟩, hdungeons, hnesting, ⟨hatoms, hbosses⟩, ?_⟩
    rw [hothers.2 hlisted]
    exact if_neg (not_not_intro hcharts)

/-! ### Entries of intact tables -/

/-- An entry of a list of entries whose names are unique is found under its name. -/
theorem find?_eq_some_of_nodup {α : Type} {name : α → String} {entries : List α} {entry : α}
    (hnames : (entries.map name).Nodup) (hentry : entry ∈ entries) :
    entries.find? (fun other => name other = name entry) = some entry := by
  induction entries with
  | nil => exact absurd hentry List.not_mem_nil
  | cons first rest ih =>
    obtain ⟨hfirst, hrest⟩ := List.nodup_cons.1 hnames
    rcases List.mem_cons.1 hentry with rfl | hentry
    · simp
    · have hne : name first ≠ name entry := fun heq =>
        hfirst (heq ▸ List.mem_map_of_mem hentry)
      rw [List.find?_cons_of_neg (by simpa using hne)]
      exact ih hrest hentry

namespace Intact

variable {entry : EntranceEntry}

/-- An entrance is found under its internal name. -/
theorem entrance?_internalName (h : data.Intact) (hentry : entry ∈ data.entrances) :
    data.entrance? entry.internalName = some entry :=
  find?_eq_some_of_nodup h.entranceNames hentry

/-- The macro of an entrance exists. -/
theorem macroNameOfEntrance_eq (h : data.Intact) (hentry : entry ∈ data.entrances) :
    data.macroNameOfEntrance entry.internalName = .ok entry.macroName := by
  have hmacro : ¬(data.macroText? entry.macroName).isNone = true := by
    rw [Bool.not_eq_true, Option.isNone_eq_false_iff]
    exact h.entranceMacros entry hentry
  rw [macroNameOfEntrance, entranceEntry, h.entrance?_internalName hentry]
  change (if _ then _ else _) = _
  rw [if_neg hmacro]
  rfl

/-- A boss is found under the atom that stands for it. -/
theorem bossOfRequirement?_requirement (h : data.Intact) {boss : RequiredBoss}
    (hboss : boss ∈ data.requiredBosses) :
    data.bossOfRequirement? boss.requirement = some boss :=
  find?_eq_some_of_nodup h.bossAtoms hboss

end Intact

end SeedLogic.GameData
