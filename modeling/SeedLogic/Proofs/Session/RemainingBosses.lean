import Mathlib.Data.List.Dedup
import SeedLogic.Proofs.Session.BossMarks

/-!
# Bosses that may still be marked

A session is asked whether one more boss may be marked as not required, so that as many stay
required as the settings ask for. Marks belong to dungeons, while the question is decided by the
number of rows in the table of required bosses, and by a number of required bosses that may be
negative. Whenever one more dungeon may be marked the answer is positive. It is positive without
such a dungeon in two cases: when the number in the settings is negative and no dungeon is left to
be marked, and when more rows than dungeons make up for the dungeons that would be missing.

## Main definitions

* `GameData.bossDungeons`, `Session.requiredDungeons` : the dungeons with a boss, and those whose
  boss is required.
* `Session.MayWaive` : one more dungeon may be marked.

## Main results

* `Session.length_requiredDungeons_add_size` : every dungeon with a boss is marked or required.
* `Session.mayWaive_iff` : when one more dungeon may be marked, in numbers.
* `remaining_bosses_iff` : when the answer is positive.
-/

namespace SeedLogic

open Session

/-! ### Dungeons with a boss -/

/-- The number of names in a set is the number of its names in any list that has them all. -/
theorem NameSet.size_eq_length_filter (names : NameSet) {known : List String}
    (hknown : known.Nodup) (hall : ∀ name, names.contains name = true → name ∈ known) :
    names.size = (known.filter names.contains).length := by
  have hkeys : names.keys.Nodup :=
    List.pairwise_map.2 (names.sorted.imp fun {a b} hlt (heq : a.1 = b.1) =>
      Std.lt_irrefl (heq ▸ hlt))
  have hmem (name : String) : name ∈ names.keys ↔ names.contains name = true := by
    constructor
    · intro hname
      obtain ⟨entry, hentry, rfl⟩ := List.mem_map.1 hname
      rw [Dict.contains, Dict.mem_entries_iff_get?.1 hentry]
      rfl
    · intro hname
      obtain ⟨value, hvalue⟩ := Option.isSome_iff_exists.1 hname
      exact Dict.mem_keys_of_get? hvalue
  have hperm : names.keys.Perm (known.filter names.contains) := by
    refine (List.perm_ext_iff_of_nodup hkeys (hknown.filter _)).2 fun name => ?_
    rw [hmem, List.mem_filter]
    exact ⟨fun h => ⟨hall name h, h⟩, And.right⟩
  rw [← hperm.length_eq, Dict.keys, List.length_map, Dict.size]

/-- The dungeons that the table of required bosses names. -/
def GameData.bossDungeons (data : GameData) : List String :=
  (data.requiredBosses.map RequiredBoss.dungeon).dedup

theorem GameData.nodup_bossDungeons (data : GameData) : data.bossDungeons.Nodup :=
  List.nodup_dedup _

theorem GameData.mem_bossDungeons {data : GameData} {dungeon : String} :
    dungeon ∈ data.bossDungeons ↔ ∃ boss ∈ data.requiredBosses, boss.dungeon = dungeon := by
  rw [bossDungeons, List.mem_dedup, List.mem_map]

namespace Session

/-- The dungeons with a boss that is still required. -/
def requiredDungeons (s : Session) : List String :=
  s.data.bossDungeons.filter s.isBossRequired

/-- The number of bosses that the settings require. -/
def requiredNumber (s : Session) : Int :=
  (s.settings.integer OptionName.numRequiredBosses).toInt

/-- One more dungeon may be marked: its boss is still required, and when it is marked as not
required the bosses of sufficiently many dungeons stay required. -/
def MayWaive (s : Session) : Prop :=
  ∃ dungeon ∈ s.requiredDungeons,
    s.requiredNumber ≤ ((Operation.setBossNotRequired dungeon).perform s).2.requiredDungeons.length

instance (s : Session) : Decidable s.MayWaive :=
  inferInstanceAs (Decidable (∃ dungeon ∈ s.requiredDungeons, _))

variable {s : Session} {dungeon : String}

/-- Every dungeon with a boss is either marked or required. -/
theorem length_requiredDungeons_add_size
    (hmarks : ∀ dungeon, s.notRequired.contains dungeon = true → dungeon ∈ s.data.bossDungeons) :
    s.requiredDungeons.length + s.notRequired.size = s.data.bossDungeons.length := by
  have hsize := NameSet.size_eq_length_filter s.notRequired s.data.nodup_bossDungeons hmarks
  have hsplit := List.length_eq_length_filter_add s.notRequired.contains (l := s.data.bossDungeons)
  have hrequired : s.requiredDungeons =
      s.data.bossDungeons.filter fun dungeon => !s.notRequired.contains dungeon := rfl
  rw [hsplit, hsize, hrequired, Nat.add_comm]

/-- Marking a dungeon whose boss is required leaves all others required. -/
theorem length_requiredDungeons_waived (h : dungeon ∈ s.requiredDungeons) :
    ((Operation.setBossNotRequired dungeon).perform s).2.requiredDungeons.length + 1 =
      s.requiredDungeons.length := by
  have hnodup : s.requiredDungeons.Nodup := s.data.nodup_bossDungeons.filter _
  obtain ⟨requirement, hboss⟩ := GameData.exists_bossRequirement_iff.2
    (GameData.mem_bossDungeons.1 (List.mem_of_mem_filter h))
  have hwaived : ((Operation.setBossNotRequired dungeon).perform s).2.requiredDungeons =
      s.requiredDungeons.erase dungeon := by
    rw [Operation.perform_of_toggle? rfl s, hboss, hnodup.erase_eq_filter, requiredDungeons,
      requiredDungeons, List.filter_filter]
    refine List.filter_congr fun other _ => ?_
    show (!(s.notRequired.add dungeon).contains other) =
      (other != dungeon && s.isBossRequired other)
    rw [NameSet.contains_add, Bool.not_or]
    rfl
  rw [hwaived, List.length_erase_of_mem h]
  have hpos := List.length_pos_of_mem h
  omega

/-- One more dungeon may be marked if there is one and more are required than need be. -/
theorem mayWaive_iff :
    s.MayWaive ↔ 0 < s.requiredDungeons.length ∧ s.requiredNumber < s.requiredDungeons.length := by
  constructor
  · rintro ⟨dungeon, hdungeon, hnumber⟩
    have hlength := length_requiredDungeons_waived hdungeon
    omega
  · rintro ⟨hpos, hnumber⟩
    obtain ⟨dungeon, hdungeon⟩ := List.exists_mem_of_length_pos hpos
    have hlength := length_requiredDungeons_waived hdungeon
    exact ⟨dungeon, hdungeon, by omega⟩

/-- A number below a clamped integer is below the integer and below the greatest 64-bit number. -/
theorem lt_clamp64_iff {n : Nat} {m : Int} :
    (n : Int) < clamp64 m ↔ n < m ∧ n < Int64.maxValue.toInt := by
  have hmin : Int64.minValue.toInt < 0 := by decide
  rw [clamp64]
  omega

end Session

/-! ### The answer -/

/-- After every run the answer is positive exactly if one more dungeon may be marked, or no dungeon
is left to be marked and the settings require a negative number, or the rows of the table that
repeat a dungeon make up for the dungeons that are missing. So it is right for tables that name each
dungeon once and settings without a negative number. No table has so many dungeons that marks reach
the greatest 64-bit number. -/
theorem remaining_bosses_iff {settings : Settings} {data : GameData} {start : Session}
    (hstart : (Session.start settings data).1 = .ok start) (operations : List Operation) :
    let s := start.after operations
    let required := s.requiredDungeons.length
    let surplus := data.requiredBosses.length - data.bossDungeons.length
    let small := (s.notRequired.size : Int) < Int64.maxValue.toInt
    ∃ answer, Operation.anyNonRequiredBossesRemaining.perform s = (.ok (.flag answer), s) ∧
      (answer = true ↔ small ∧
        (s.MayWaive ∨ required = 0 ∧ s.requiredNumber < 0 ∨
          required ≤ s.requiredNumber ∧ s.requiredNumber < required + surplus)) ∧
      ((data.requiredBosses.map RequiredBoss.dungeon).Nodup → 0 ≤ s.requiredNumber →
        (answer = true ↔ small ∧ s.MayWaive)) := by
  intro s required surplus small
  have hmarked := Marked.after hstart operations
  have hdata : s.data = data := hmarked.tables
  have hcount : required + s.notRequired.size = data.bossDungeons.length := by
    rw [← hdata]
    refine length_requiredDungeons_add_size fun dungeon hdungeon => ?_
    rw [hdata, GameData.mem_bossDungeons]
    exact hmarked.bosses dungeon hdungeon
  have hrows : data.bossDungeons.length ≤ data.requiredBosses.length := by
    have hle := (List.dedup_sublist (data.requiredBosses.map RequiredBoss.dungeon)).length_le
    rwa [List.length_map] at hle
  have hanswer : s.anyNonRequiredBossesRemaining = true ↔
      small ∧ s.requiredNumber < required + surplus := by
    rw [anyNonRequiredBossesRemaining, decide_eq_true_iff, lt_clamp64_iff, hdata, requiredNumber]
    omega
  have hwaive : s.MayWaive ↔ 0 < required ∧ s.requiredNumber < required := mayWaive_iff
  refine ⟨s.anyNonRequiredBossesRemaining, rfl, ?_, fun hnodup hnumber => ?_⟩
  · rw [hanswer, hwaive]
    refine and_congr_right fun _ => ?_
    omega
  · have hdistinct : data.bossDungeons.length = data.requiredBosses.length := by
      rw [GameData.bossDungeons, hnodup.dedup, List.length_map]
    rw [hanswer, hwaive]
    refine and_congr_right fun _ => ?_
    omega

theorem remaining_bosses_iff_keep :
    (Session.start {} keep).1 = .ok (initial {} keep) ∧
    let s := (initial {} keep).after [.setBossNotRequired "Keep", .setBossRequired "Keep"]
    (keep.requiredBosses.map RequiredBoss.dungeon).Nodup ∧ 0 ≤ s.requiredNumber ∧ s.MayWaive ∧
      (Operation.anyNonRequiredBossesRemaining.perform s).1 = .ok (.flag true) := by
  have hstart : (Session.start {} keep).1 = .ok (initial {} keep) :=
    start_of_validate {} (by decide +kernel)
  refine ⟨hstart, ?_⟩
  intro s
  have hnodup : (keep.requiredBosses.map RequiredBoss.dungeon).Nodup := by decide
  have hnumber : 0 ≤ s.requiredNumber := by decide +kernel
  have hwaive : s.MayWaive := by decide +kernel
  obtain ⟨answer, hperform, -, hright⟩ :=
    remaining_bosses_iff hstart [.setBossNotRequired "Keep", .setBossRequired "Keep"]
  obtain rfl : answer = true := (hright hnodup hnumber).2 ⟨by decide +kernel, hwaive⟩
  exact ⟨hnodup, hnumber, hwaive, congrArg Prod.fst hperform⟩

/-- Tables of a crypt with two bosses. -/
def twoLiches : GameData where
  requiredBosses := [{ dungeon := "Crypt", requirement := "Can Defeat Lich" },
    { dungeon := "Crypt", requirement := "Can Defeat Lich Again" }]
  dungeons := [{ name := "Crypt", shortName := "Crypt" }]

/-- The settings require as many bosses as there are dungeons with a boss, and the crypt cannot be
spared, but its second row counts as another dungeon. Nor can more than all be marked, but a
negative number asks for it. -/
theorem remaining_bosses_twoLiches :
    let requiring (number : Int64) : Settings :=
      { options := .ofList [(OptionName.numRequiredBosses, .integer number)] }
    twoLiches.validate = .ok () ∧
    (let s := initial (requiring 1) twoLiches
     (Session.start (requiring 1) twoLiches).1 = .ok s ∧ ¬s.MayWaive ∧
      (Operation.anyNonRequiredBossesRemaining.perform s).1 = .ok (.flag true)) ∧
    let s := (initial (requiring (-1)) keep).after [.setBossNotRequired "Keep"]
    (Session.start (requiring (-1)) keep).1 = .ok (initial (requiring (-1)) keep) ∧
      s.requiredDungeons = [] ∧
      (Operation.anyNonRequiredBossesRemaining.perform s).1 = .ok (.flag true) := by
  have hvalid : twoLiches.validate = .ok () := by decide +kernel
  refine ⟨hvalid, ⟨start_of_validate _ hvalid, ?_⟩, start_of_validate _ ?_, ?_⟩
  all_goals decide +kernel

end SeedLogic
