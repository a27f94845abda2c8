import Mathlib.Control.Monad.Basic
import SeedLogic.Proofs.Requirement.Keys
import SeedLogic.Proofs.Resolution.Derivation
import SeedLogic.Proofs.Session.Runs

/-!
# Small keys of locations

The number of small keys that a location needs is computed from its simplified tree and remembered.
It is the threshold of the unsimplified tree nevertheless, in every session that is reached from a
start: a tree that is remembered is the one that would be computed, and simplification leaves the
threshold where it was. When the unsimplified tree can be built, the only way to fail is that even
all small keys of the dungeon do not suffice.

## Main results

* `Session.Faithful.outcome_locationTree_of_raw` : simplified trees of locations.
* `Session.Faithful.outcome_smallKeysRequired` : numbers of small keys.
* `small_keys_threshold` : numbers of small keys after a run.
-/

namespace SeedLogic

open Requirement Session

/-- A dungeon has a name for its small keys, and there are so many of them. -/
theorem Session.exists_smallKeyName {s : Session} {dungeon : String}
    (h : s.data.isDungeon dungeon = true) :
    ∃ key, s.data.smallKeyName dungeon = .ok key ∧
      s.maxSmallKeys dungeon = .ok (s.maxItemCount key) := by
  obtain ⟨entry, hentry⟩ := Option.isSome_iff_exists.1 h
  have hkey : s.data.smallKeyName dungeon = .ok (entry.shortName ++ " " ++ "Small Key") := by
    simp only [GameData.smallKeyName, GameData.dungeonItemName, GameData.dungeonEntry, hentry]
    rfl
  refine ⟨_, hkey, ?_⟩
  rw [maxSmallKeys, hkey]
  rfl

namespace Session.Faithful

variable {s : Session} {general detailed : String} {flattened : Bool} {raw : Requirement}

/-- When the unsimplified tree of a location can be built, the session gives its simplification,
whether it remembers either of them or not. -/
theorem outcome_locationTree_of_raw (hs : s.Faithful)
    (hraw : (s.outcome (rawLocationTree general detailed flattened)).1 = .ok raw) :
    (s.outcome (locationTree general detailed flattened)).1 = .ok (simplified raw) := by
  have hlocated := hs.outcome_rawLocationTree (eq_outcome_of_fst hraw)
  rw [locationTree]
  refine fst_outcome_remember _ ?_ fun t ht => ?_
  · rw [outcome_bind_of_ok _ (eq_outcome_of_fst hraw), outcome_pure]
  · obtain ⟨other, hother, rfl⟩ := hs.outcome_locationTree (outcome_remember_of_some _ ht)
    rw [hother.unique hlocated]

/-- When the unsimplified tree of a location can be built, the number of small keys is the least one
for this tree, whether it is remembered or not. -/
theorem outcome_smallKeysRequired (hs : s.Faithful) {key : String} {maximum : UInt32}
    (hkey : s.data.smallKeyName general = .ok key) (hmaximum : s.maxSmallKeys general = .ok maximum)
    (hraw : (s.outcome (rawLocationTree general detailed false)).1 = .ok raw) :
    (s.outcome (smallKeysRequired general detailed)).1 =
      match raw.minimumKeys key maximum with
      | some count => .ok count
      | none => .error (.smallKeysUnsatisfiable general detailed) := by
  have hlocated := hs.outcome_rawLocationTree (eq_outcome_of_fst hraw)
  have htree := eq_outcome_of_fst (hs.outcome_locationTree_of_raw hraw)
  rw [← minimumKeys_simplify raw, smallKeysRequired, fst_outcome_audited]
  refine fst_outcome_remember _ ?_ fun count hcount => ?_
  · rw [outcome_bind_of_ok _ (outcome_get s), hmaximum, hkey,
      outcome_bind_of_ok _ (outcome_lift s _), outcome_bind_of_ok _ (outcome_lift s _),
      outcome_bind_of_ok _ htree]
    rw [simplified]
    cases (raw.simplify ItemRequirement.implies).minimumKeys key maximum <;> rfl
  · have houtcome : s.outcome (answered (.smallKeys general detailed)) = (.ok count, s) :=
      outcome_remember_of_some _ hcount
    obtain ⟨maximum', key', other, hmaximum', hkey', hother, hleast⟩ :=
      hs.outcome_smallKeys houtcome
    obtain rfl := Except.ok.inj (hmaximum.symm.trans hmaximum')
    obtain rfl := Except.ok.inj (hkey.symm.trans hkey')
    obtain rfl := hother.unique hlocated
    rw [simplified] at hleast
    rw [hleast]

end Session.Faithful

/-- After every run, take a location of a dungeon whose unsimplified tree can be built. The number
of small keys of the location is at most the number of small keys of the dungeon, and with all other
items held the unsimplified tree holds with this number of keys, with every larger one and with no
smaller one. The only failure is that the tree fails with all small keys of the dungeon. -/
theorem small_keys_threshold {settings : Settings} {data : GameData} {start : Session}
    (hstart : (Session.start settings data).1 = .ok start) (operations : List Operation)
    {general detailed : String} {raw : Requirement} (hdungeon : data.isDungeon general = true)
    (hraw : ((start.after operations).outcome
      (rawRequirementsForLocation general detailed false)).1 = .ok raw) :
    let s := start.after operations
    let answer := (s.outcome (smallKeysRequired general detailed)).1
    ∃ key maximum, data.smallKeyName general = .ok key ∧ s.maxSmallKeys general = .ok maximum ∧
      (∀ least, answer = .ok least ↔ least ≤ maximum ∧
        ∀ count, raw.availableWithKeys key count (fun _ => true) = true ↔ least ≤ count) ∧
      (answer = .error (.smallKeysUnsatisfiable general detailed) ↔
        raw.availableWithKeys key maximum (fun _ => true) = false) ∧
      ∀ e, answer = .error e → e = .smallKeysUnsatisfiable general detailed := by
  intro s answer
  obtain ⟨hstarted, htables⟩ := Faithful.of_start hstart
  obtain ⟨hs, hafter⟩ := hstarted.after operations
  have hdata : s.data = data := hafter.trans htables
  obtain ⟨key, hkey, hmaximum⟩ := exists_smallKeyName (s := s) (by rwa [hdata])
  have hraw' : (s.outcome (rawLocationTree general detailed false)).1 = .ok raw := by
    rwa [rawRequirementsForLocation, fst_outcome_audited] at hraw
  have hanswer : answer = match raw.minimumKeys key (s.maxItemCount key) with
      | some count => .ok count
      | none => .error (.smallKeysUnsatisfiable general detailed) :=
    hs.outcome_smallKeysRequired hkey hmaximum hraw'
  refine ⟨key, s.maxItemCount key, hdata ▸ hkey, hmaximum, ?_⟩
  simp only [← minimumKeys_eq_some_iff, ← minimumKeys_eq_none_iff, hanswer]
  cases raw.minimumKeys key (s.maxItemCount key) with
  | none => simp
  | some least => simp

/-- The chest of the keep, for which the warden has been waived, asked for a second time. -/
theorem small_keys_threshold_keep :
    let operations := [.setBossNotRequired "Keep", .smallKeysRequired "Keep" "Chest"]
    let s := (initial {} keep).after operations
    let raw := join .and [.nothing, .leaf "Has Accessed Other Location \"Keep - Gate\"",
      .leaf "Keep Small Key x1"]
    (Session.start {} keep).1 = .ok (initial {} keep) ∧ keep.isDungeon "Keep" = true ∧
      (s.outcome (rawRequirementsForLocation "Keep" "Chest" false)).1 = .ok raw ∧
      (s.outcome (smallKeysRequired "Keep" "Chest")).1 = .ok 1 ∧
      ∀ count, raw.availableWithKeys "Keep Small Key" count (fun _ => true) = true ↔ 1 ≤ count := by
  intro operations s raw
  have hstart : (Session.start {} keep).1 = .ok (initial {} keep) := start_of_validate {} rfl
  have hdungeon : keep.isDungeon "Keep" = true := by decide +kernel
  have hraw : (s.outcome (rawRequirementsForLocation "Keep" "Chest" false)).1 = .ok raw := by
    decide +kernel
  have hanswer : (s.outcome (smallKeysRequired "Keep" "Chest")).1 = .ok 1 := by decide +kernel
  have hname : keep.smallKeyName "Keep" = .ok "Keep Small Key" := by decide +kernel
  obtain ⟨key, maximum, hkey, -, hleast, -⟩ :=
    small_keys_threshold hstart operations hdungeon hraw
  obtain rfl := Except.ok.inj (hname.symm.trans hkey)
  exact ⟨hstart, hdungeon, hraw, hanswer, ((hleast 1).1 hanswer).2⟩

end SeedLogic
