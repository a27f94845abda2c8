import Mathlib.Control.Monad.Basic
import SeedLogic.Proofs.Resolution.Derivation
import SeedLogic.Proofs.Session.Failures
import SeedLogic.Proofs.Session.Runs

/-!
# The locations of bosses

In flattened mode an atom that stands for a required boss becomes the requirements of its location.
The location of a boss is that of an override, or else the first location of the dungeon that
carries the boss flag. The tables have it unless the override names a location that they lack, or
there is neither an override nor a location with the flag. These are the two ways in which the
substitution of a boss fails at its own location, whatever has been asked before. The integrity
check looks at neither of them: the tables `crypts` pass it, and both of their bosses fail.

## Main definitions

* `GameData.LacksBoss`, `GameData.DanglingOverride` : the two ways to have no boss location.
* `crypts` : tables with a boss for either of them.

## Main results

* `GameData.exists_bossLocation_iff` : the boss locations that the tables have.
* `boss_substitution_fails_iff` : the substitutions that fail at the boss location.
* `crypts_substitutions_fail` : bosses of tables that pass the integrity check.
-/

namespace SeedLogic

open Session

/-! ### Boss locations in the tables -/

namespace GameData

variable {data : GameData} {dungeon : String}

/-- No override names the boss location of the dungeon, and no location of it carries the boss
flag. -/
def LacksBoss (data : GameData) (dungeon : String) : Prop :=
  data.bossLocationOverrides.get? dungeon = none ∧
    ∀ detailed entry, data.location? dungeon detailed = some entry →
      entry.hasFlag FlagName.boss = false

/-- An override names a boss location that the tables lack. -/
def DanglingOverride (data : GameData) (dungeon : String) : Prop :=
  ∃ detailed, data.bossLocationOverrides.get? dungeon = some detailed ∧
    data.location? dungeon detailed = none

theorem bossLocation_eq_error_iff_lacksBoss {e : LogicError} :
    data.bossLocation dungeon = .error e ↔
      data.LacksBoss dungeon ∧ e = .unknownBossLocation dungeon :=
  bossLocation_eq_error_iff.trans and_assoc.symm

/-- The boss location that is found is that of the override or a location of the tables. -/
theorem of_bossLocation_eq_ok {detailed : String} (h : data.bossLocation dungeon = .ok detailed) :
    data.bossLocationOverrides.get? dungeon = some detailed ∨
      ∃ entry, data.location? dungeon detailed = some entry := by
  rw [bossLocation] at h
  cases hoverride : data.bossLocationOverrides.get? dungeon with
  | some other =>
    rw [hoverride] at h
    cases h
    exact Or.inl rfl
  | none =>
    rw [hoverride] at h
    cases hfind : (data.locationsIn dungeon).entries.find? (·.2.hasFlag FlagName.boss) with
    | none =>
      simp only [hfind] at h
      cases h
    | some found =>
      simp only [hfind] at h
      cases h
      exact Or.inr ⟨found.2, Dict.mem_entries_iff_get?.1 (List.mem_of_find?_eq_some hfind)⟩

/-- An override is the boss location. -/
theorem bossLocation_of_override {detailed : String}
    (h : data.bossLocationOverrides.get? dungeon = some detailed) :
    data.bossLocation dungeon = .ok detailed := by
  rw [bossLocation, h]
  rfl

/-- The boss location that is found is missing exactly when an override dangles. -/
theorem danglingOverride_iff :
    data.DanglingOverride dungeon ↔ ∃ detailed, data.bossLocation dungeon = .ok detailed ∧
      data.location? dungeon detailed = none := by
  constructor
  · rintro ⟨detailed, hoverride, hnone⟩
    exact ⟨detailed, bossLocation_of_override hoverride, hnone⟩
  · rintro ⟨detailed, hfound, hnone⟩
    rcases of_bossLocation_eq_ok hfound with hoverride | ⟨entry, hentry⟩
    · exact ⟨detailed, hoverride, hnone⟩
    · exact absurd (hnone.symm.trans hentry) nofun

/-- The tables have the boss location of a dungeon unless there is no boss or an override
dangles. -/
theorem exists_bossLocation_iff :
    (∃ detailed entry, data.bossLocation dungeon = .ok detailed ∧
      data.location? dungeon detailed = some entry) ↔
      ¬data.LacksBoss dungeon ∧ ¬data.DanglingOverride dungeon := by
  rw [danglingOverride_iff]
  cases hfound : data.bossLocation dungeon with
  | error e =>
    have hlacks := (bossLocation_eq_error_iff_lacksBoss.1 hfound).1
    exact ⟨nofun, fun h => absurd hlacks h.1⟩
  | ok detailed =>
    have hhas : ¬data.LacksBoss dungeon := fun hlacks => by
      rw [bossLocation_eq_error_iff_lacksBoss.2 ⟨hlacks, rfl⟩] at hfound
      cases hfound
    simp [hhas, Option.ne_none_iff_exists']

end GameData

/-! ### Substitutions in a session -/

section Substitution

variable {s : Session} {depth : Nat} {atom dungeon : String}
  (hatom : s.resolution.classify true atom = .ok (.boss (.substitute dungeon)))

include hatom

private theorem expansion_eq_of_substitute : s.resolution.expansion true atom = (do
    let detailed ← s.data.bossLocation dungeon
    pure (.location dungeon detailed true)) :=
  Resolution.expansion_of_classify hatom

/-- A substitution fails for want of a boss location exactly when there is none, at every depth. -/
theorem outcome_substitution_eq_unknownBossLocation_iff :
    (s.outcome (expandAtom depth true atom)).1 = .error (.unknownBossLocation dungeon) ↔
      s.data.LacksBoss dungeon := by
  constructor
  · intro h
    exact (GameData.bossLocation_eq_error_iff_lacksBoss.1
      (explains_of_expandAtom rfl h).noBossLocation).1
  · intro h
    have hexpansion := expansion_eq_of_substitute hatom
    rw [GameData.bossLocation_eq_error_iff_lacksBoss.2 ⟨h, rfl⟩] at hexpansion
    cases depth with
    | zero =>
      rw [outcome_expandAtom_zero, hexpansion]
      rfl
    | succ depth =>
      rw [outcome_expandAtom_succ, hexpansion]
      rfl

/-- A substitution fails since its boss location is unknown exactly when an override dangles and
the expansion may nest deeper. -/
theorem outcome_substitution_eq_unknownLocation_iff (hs : s.Faithful) :
    (∃ detailed, s.data.bossLocation dungeon = .ok detailed ∧
      (s.outcome (expandAtom depth true atom)).1 = .error (.unknownLocation dungeon detailed)) ↔
      0 < depth ∧ s.data.DanglingOverride dungeon := by
  have hexpansion := expansion_eq_of_substitute hatom
  rw [GameData.danglingOverride_iff]
  constructor
  · rintro ⟨detailed, hfound, h⟩
    have hnone := (explains_of_expandAtom rfl h).noLocation
    rw [hfound] at hexpansion
    refine ⟨Nat.pos_of_ne_zero fun hdepth => ?_, detailed, hfound, hnone⟩
    subst hdepth
    rw [outcome_expandAtom_zero, hexpansion] at h
    cases h
  · rintro ⟨hdepth, detailed, hfound, hnone⟩
    obtain ⟨depth, rfl⟩ := Nat.exists_eq_succ_of_ne_zero (Nat.ne_of_gt hdepth)
    have hentry : s.data.locationEntry dungeon detailed =
        .error (.unknownLocation dungeon detailed) :=
      GameData.locationEntry_eq_error_iff.2 ⟨hnone, rfl⟩
    -- What a faithful session remembers of a location shows that the tables have it.
    have hget : s.cache.get? (.rawLocation dungeon detailed true) = none := by
      refine Option.eq_none_iff_forall_ne_some.2 fun t ht => ?_
      obtain ⟨entry, hlisted, -⟩ := hs.located ht
      exact absurd (hentry.symm.trans hlisted) nofun
    rw [hfound] at hexpansion
    refine ⟨detailed, hfound, ?_⟩
    rw [outcome_expandAtom_succ, hexpansion]
    exact congrArg Prod.fst (outcome_rawLocationWith_of_error _ hget hentry)

end Substitution

/-- The tables have the boss location of a dungeon unless they lack the boss or have a dangling
override for it. After every run, and while a session goes on from there and stays faithful, a
required boss that is substituted in flattened mode fails for want of a boss location exactly in the
first case, and since its boss location is unknown exactly in the second one, unless it is expanded
too deep. -/
theorem boss_substitution_fails_iff {settings : Settings} {data : GameData} {start : Session}
    (hstart : (Session.start settings data).1 = .ok start) (operations : List Operation)
    (dungeon : String) :
    let s := start.after operations
    s.Faithful ∧
    ((∃ detailed entry, data.bossLocation dungeon = .ok detailed ∧
      data.location? dungeon detailed = some entry) ↔
      ¬data.LacksBoss dungeon ∧ ¬data.DanglingOverride dungeon) ∧
    ∀ t : Session, s.Grows t → t.Faithful → ∀ depth atom,
      t.resolution.classify true atom = .ok (.boss (.substitute dungeon)) →
      ((t.outcome (expandAtom depth true atom)).1 = .error (.unknownBossLocation dungeon) ↔
        data.LacksBoss dungeon) ∧
      ((∃ detailed, data.bossLocation dungeon = .ok detailed ∧
        (t.outcome (expandAtom depth true atom)).1 = .error (.unknownLocation dungeon detailed)) ↔
        0 < depth ∧ data.DanglingOverride dungeon) := by
  intro s
  obtain ⟨hstarted, htables⟩ := Faithful.of_start hstart
  obtain ⟨hs, hdata⟩ := hstarted.after operations
  refine ⟨hs, GameData.exists_bossLocation_iff, fun t hgrows hfaithful depth atom hatom => ?_⟩
  have hview : t.data = data :=
    (congrArg (fun view => view.data) hgrows.view).trans (hdata.trans htables)
  rw [← hview]
  exact ⟨outcome_substitution_eq_unknownBossLocation_iff hatom,
    outcome_substitution_eq_unknownLocation_iff hatom hfaithful⟩

/-- The warden of the keep is substituted without a failure at its location. -/
theorem boss_substitution_fails_iff_keep :
    (Session.start {} keep).1 = .ok (initial {} keep) ∧
    let s := (initial {} keep).after [.setBossNotRequired "Keep", .reset]
    s.resolution.classify true "Can Defeat Warden" = .ok (.boss (.substitute "Keep")) ∧
    (s.outcome (expandAtom maxExpansionDepth true "Can Defeat Warden")).1 ≠
      .error (.unknownBossLocation "Keep") := by
  have hstart : (Session.start {} keep).1 = .ok (initial {} keep) :=
    start_of_validate {} (by decide +kernel)
  have hatom : ((initial {} keep).after [.setBossNotRequired "Keep", .reset]).resolution.classify
      true "Can Defeat Warden" = .ok (.boss (.substitute "Keep")) := by decide +kernel
  obtain ⟨hfaithful, hhas, hfails⟩ :=
    boss_substitution_fails_iff hstart [.setBossNotRequired "Keep", .reset] "Keep"
  have hlocation : ∃ detailed entry, keep.bossLocation "Keep" = .ok detailed ∧
      keep.location? "Keep" detailed = some entry :=
    ⟨"Warden", { need := "Can Enter Keep & Sword", types := FlagName.boss }, by decide +kernel,
      by decide +kernel⟩
  exact ⟨hstart, hatom, fun h => (hhas.1 hlocation).1
    ((hfails _ (Grows.refl _) hfaithful maxExpansionDepth _ hatom).1.1 h)⟩

/-- Tables of a crypt without a location and of a vault whose boss location is not listed, each with
a boss. -/
def crypts : GameData where
  requiredBosses := [{ dungeon := "Crypt", requirement := "Can Defeat Lich" },
    { dungeon := "Vault", requirement := "Can Defeat Keeper" }]
  dungeons := [{ name := "Crypt", shortName := "Crypt" }, { name := "Vault", shortName := "Vault" }]
  bossLocationOverrides := .ofList [("Vault", "Throne")]

/-- The boss of the crypt has no location, and that of the vault has one that is unknown, although
the tables pass the integrity check. -/
theorem crypts_substitutions_fail :
    crypts.validate = .ok () ∧
    (Session.start {} crypts).1 = .ok (initial {} crypts) ∧
    ((Operation.buildRequirement "Can Defeat Lich" true).perform (initial {} crypts)).1 =
      .error (.unknownBossLocation "Crypt") ∧
    ((Operation.buildRequirement "Can Defeat Keeper" true).perform (initial {} crypts)).1 =
      .error (.unknownLocation "Vault" "Throne") :=
  have hvalid : crypts.validate = .ok () := by decide +kernel
  ⟨hvalid, start_of_validate {} hvalid, by decide +kernel, by decide +kernel⟩

end SeedLogic
