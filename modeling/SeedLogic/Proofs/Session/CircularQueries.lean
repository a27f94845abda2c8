import Mathlib.Control.Monad.Basic
import SeedLogic.Proofs.Resolution.Cycles
import SeedLogic.Proofs.Session.ExpansionDepth
import SeedLogic.Proofs.Session.Runs

/-!
# Queries about circular definitions

Tables may define macros, locations and bosses in a circle, and the integrity check does not look
for that. A query about such requirements returns all the same. It fails, since an answer would have
a derivation, and the circle has none. So it leaves no tree behind for a location on the circle, and
the counter of nested expansions is where it was.

## Main definitions

* `Operation.Needs` : the requirement text whose tree an operation needs.
* `wyrmsLair` : tables with a circle of a macro, a location and a boss.

## Main results

* `Session.Faithful.exists_builds_of_perform` : what an operation answers has a derivation.
* `circular_requirements_fail` : queries about circular requirements fail, and all queries return.
-/

namespace SeedLogic

open Requirement Session

/-- An operation needs the tree of a requirement text, with expansions in the given mode. -/
inductive Operation.Needs (data : GameData) : Operation → String → Bool → Prop
  | location {general detailed : String} {flattened : Bool} {entry : LocationEntry}
      (hentry : data.locationEntry general detailed = .ok entry) :
      Needs data (.requirementsForLocation general detailed flattened) entry.need flattened
  | rawLocation {general detailed : String} {flattened : Bool} {entry : LocationEntry}
      (hentry : data.locationEntry general detailed = .ok entry) :
      Needs data (.rawRequirementsForLocation general detailed flattened) entry.need flattened
  | entrance {entrance name : String} (hname : data.macroNameOfEntrance entrance = .ok name) :
      Needs data (.requirementsForEntrance entrance) name false
  | smallKeys {general detailed : String} {entry : LocationEntry}
      (hentry : data.locationEntry general detailed = .ok entry) :
      Needs data (.smallKeysRequired general detailed) entry.need false
  | availability {general detailed : String} {entry : LocationEntry} {count : UInt32}
      {held : String → Bool} (hentry : data.locationEntry general detailed = .ok entry) :
      Needs data (.isAvailableWithSmallKeys general detailed count held) entry.need false
  | text (text : String) (flattened : Bool) :
      Needs data (.buildRequirement text flattened) text flattened

namespace Session.Faithful

variable {s : Session} {operation : Operation} {text : String} {flattened : Bool}

/-- An operation that succeeds needs a tree that has a derivation. -/
theorem exists_builds_of_perform (hs : s.Faithful) (hneeds : operation.Needs s.data text flattened)
    {reply : Reply} (hreply : (operation.perform s).1 = .ok reply) :
    ∃ known raw, s.resolution.Builds known flattened text raw := by
  cases hneeds with
  | location hentry =>
    obtain ⟨t, s', hquery, -⟩ := exists_of_outcome_map hreply
    obtain ⟨raw, hlocated, -⟩ := hs.outcome_locationTree (outcome_of_audited hquery)
    exact ⟨_, raw, hlocated.builds hentry⟩
  | rawLocation hentry =>
    obtain ⟨t, s', hquery, -⟩ := exists_of_outcome_map hreply
    have hlocated := hs.outcome_rawLocationTree (outcome_of_audited hquery)
    exact ⟨_, t, hlocated.builds hentry⟩
  | entrance hname =>
    obtain ⟨t, s', hquery, -⟩ := exists_of_outcome_map hreply
    rw [requirementsForEntrance_eq_answered] at hquery
    obtain ⟨name, raw, hfound, hbuilds, -⟩ := hs.outcome_entrance (outcome_of_audited hquery)
    obtain rfl : name = text := Except.ok.inj (hfound.symm.trans hname)
    exact ⟨_, raw, hbuilds⟩
  | smallKeys hentry =>
    obtain ⟨count, s', hquery, -⟩ := exists_of_outcome_bind hreply
    rw [smallKeysRequired_eq_answered] at hquery
    obtain ⟨_, _, raw, -, -, hlocated, -⟩ := hs.outcome_smallKeys (outcome_of_audited hquery)
    exact ⟨_, raw, hlocated.builds hentry⟩
  | availability hentry =>
    obtain ⟨available, s', hquery, -⟩ := exists_of_outcome_map hreply
    obtain ⟨_, _, hview, hquery⟩ := exists_of_outcome_bind (congrArg Prod.fst hquery)
    cases hview
    obtain ⟨key, u, hkey, hquery⟩ := exists_of_outcome_bind hquery
    obtain rfl : s = u := by
      rw [outcome_lift] at hkey
      exact congrArg Prod.snd hkey
    obtain ⟨t, v, htree, -⟩ := exists_of_outcome_bind hquery
    obtain ⟨raw, hlocated, -⟩ := hs.outcome_locationTree (outcome_of_audited htree)
    exact ⟨_, raw, hlocated.builds hentry⟩
  | text =>
    obtain ⟨t, s', hquery, -⟩ := exists_of_outcome_map hreply
    obtain ⟨raw, u, hraw, -⟩ :=
      exists_of_outcome_bind (congrArg Prod.fst (outcome_of_audited hquery))
    exact ⟨_, raw, hs.outcome_rawTree hraw⟩

end Session.Faithful

/-- After every run all operations return, and with them the counter of nested expansions to zero:
under a call stack that is higher than the limit they have the outcome that they have anyway. An
operation fails if the requirements it asks about reach an atom that is reached from itself, by
macros, references to locations and bosses under the current settings and choice of bosses. No
location on such a cycle has a remembered tree. -/
theorem circular_requirements_fail {settings : Settings} {data : GameData} {start : Session}
    (hstart : (Session.start settings data).1 = .ok start) (operations : List Operation) :
    let s := start.after operations
    (∀ fuel, maxExpansionDepth < fuel →
      Counting.after fuel 0 start operations = some (0, s) ∧
      ∀ operation : Operation, Counting.outcome 0 s (operation.counting fuel) =
        some (((operation.perform s).1, 0), (operation.perform s).2)) ∧
    (∀ (operation : Operation) (text : String) (flattened : Bool),
      operation.Needs data text flattened →
      s.resolution.Circular flattened text → ∃ e, (operation.perform s).1 = .error e) ∧
    ∀ general detailed flattened, s.resolution.OnCycle general detailed flattened →
      s.cache.get? (.rawLocation general detailed flattened) = none ∧
        s.cache.get? (.location general detailed flattened) = none := by
  intro s
  obtain ⟨hstarted, htables⟩ := Faithful.of_start hstart
  obtain ⟨hfaithful, hdata⟩ := hstarted.after operations
  refine ⟨fun fuel hfuel => ⟨?_, ?_⟩, ?_, ?_⟩
  · exact Counting.after_eq hfuel start operations
  · exact fun operation => Counting.outcome_counting hfuel operation s
  · intro operation text flattened hneeds hcircular
    rw [← htables, ← hdata] at hneeds
    cases hreply : (operation.perform s).1 with
    | error e => exact ⟨e, rfl⟩
    | ok reply =>
      -- The derivation behind a reply would have to go around the cycle.
      obtain ⟨known, raw, hbuilds⟩ := hfaithful.exists_builds_of_perform hneeds hreply
      exact absurd hcircular hbuilds.not_circular
  · intro general detailed flattened hcycle
    obtain ⟨entry, hentry, hcircular⟩ := hcycle.exists_entry
    exact hfaithful.cache_of_circular hentry hcircular

/-- Tables of a lair. To enter it the chest must be opened, for which the wyrm in the lair must be
defeated. -/
def wyrmsLair : GameData where
  macros := .ofList [("Can Enter Lair", "Can Access Item Location \"Lair - Chest\"")]
  locations := .ofList [("Lair", .ofList [
    ("Chest", { need := "Can Defeat Wyrm" }),
    ("Wyrm", { need := "Sword & Can Enter Lair", types := FlagName.boss })])]
  requiredBosses := [{ dungeon := "Lair", requirement := "Can Defeat Wyrm" }]
  dungeons := [{ name := "Lair", shortName := "Lair" }]

/-- In flattened mode the lair is circular. Outside it, the wyrm is not looked into. -/
theorem circular_requirements_fail_wyrmsLair :
    let start := initial {} wyrmsLair
    let operations := [.rawRequirementsForLocation "Lair" "Chest" false,
      .requirementsForLocation "Lair" "Chest" true]
    let s := start.after operations
    let operation := Operation.buildRequirement "Shield | Can Enter Lair" true
    (Session.start {} wyrmsLair).1 = .ok start ∧
      Counting.after (maxExpansionDepth + 1) 0 start operations = some (0, s) ∧
      s.resolution.Circular true "Shield | Can Enter Lair" ∧
      (∃ e, (operation.perform s).1 = .error e) ∧
      s.resolution.OnCycle "Lair" "Chest" true ∧
      s.cache.get? (.rawLocation "Lair" "Chest" true) = none ∧
      s.cache.get? (.rawLocation "Lair" "Chest" false) =
        some (join .and [.leaf "Can Defeat Wyrm"]) := by
  intro start operations s operation
  have hstart : (Session.start {} wyrmsLair).1 = .ok start :=
    start_of_validate {} (by decide +kernel)
  have hstarted : start.Faithful := (Faithful.of_start hstart).1
  have hgrows : start.Grows s := hstarted.grows_after (by decide)
  have hsame : s.resolution = start.resolution := hgrows.resolution_eq
  let r := start.resolution
  let reference := "Can Access Item Location \"Lair - Chest\""
  have hmacro : r.expansion true "Can Enter Lair" = .ok (.requirement reference) := by
    decide +kernel
  have hreference : r.expansion true reference = .ok (.location "Lair" "Chest" true) := by
    decide +kernel
  have hboss : r.expansion true "Can Defeat Wyrm" = .ok (.location "Lair" "Wyrm" true) := by
    decide +kernel
  have hchest : r.data.locationEntry "Lair" "Chest" = .ok { need := "Can Defeat Wyrm" } := by
    decide +kernel
  have hwyrm : r.data.locationEntry "Lair" "Wyrm" =
      .ok { need := "Sword & Can Enter Lair", types := FlagName.boss } := by
    decide +kernel
  have henters : r.Refers true "Can Enter Lair" reference :=
    ⟨_, .requirement hmacro, by decide +kernel⟩
  have hopens : r.Refers true reference "Can Defeat Wyrm" :=
    ⟨_, .location hreference rfl hchest, by decide +kernel⟩
  have hdefeats : r.Refers true "Can Defeat Wyrm" "Can Enter Lair" :=
    ⟨_, .location hboss rfl hwyrm, by decide +kernel⟩
  have hcircular : s.resolution.Circular true "Shield | Can Enter Lair" := by
    rw [hsame]
    exact ⟨"Can Enter Lair", by decide +kernel, "Can Enter Lair", .refl,
      .tail (.tail (.single henters) hopens) hdefeats⟩
  have hcycle : s.resolution.OnCycle "Lair" "Chest" true := by
    rw [hsame]
    exact ⟨reference, hreference, .tail (.tail (.single hopens) hdefeats) henters⟩
  have hkept : s.cache.get? (.rawLocation "Lair" "Chest" false) =
      some (join .and [.leaf "Can Defeat Wyrm"]) := by
    let first := start.after [.rawRequirementsForLocation "Lair" "Chest" false]
    have hfirst : first.Faithful := (hstarted.after _).1
    have hlater : s = first.after [.requirementsForLocation "Lair" "Chest" true] :=
      after_append start [_] [_]
    rw [hlater]
    exact (hfirst.grows_after (by decide)).remembers _ _ (by decide +kernel)
  obtain ⟨hreturns, hfails, hforgets⟩ := circular_requirements_fail hstart operations
  exact ⟨hstart, (hreturns _ (Nat.lt_succ_self _)).1, hcircular,
    hfails operation _ true (.text _ _) hcircular, hcycle, (hforgets _ _ _ hcycle).1, hkept⟩

end SeedLogic
