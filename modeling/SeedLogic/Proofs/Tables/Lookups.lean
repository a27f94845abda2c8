import Mathlib.Data.List.Nodup
import SeedLogic.Proofs.Tables.Integrity

/-!
# Lookups that undo each other

The tables pair charts with islands and dungeons with the atoms of their bosses. Both pairings are
looked up in either direction, and each lookup stops at the first row with the given key. A lookup
therefore finds every row of a pairing exactly if rows with the same key agree, so that the two
directions of a pairing undo each other if no key is repeated on either side.

Of the four keys the integrity check keeps only the atoms of bosses from being repeated. It accepts
the tables `strait`, in which a chart, an island and the dungeon of a boss are listed twice.

## Main definitions

* `Determines` : rows of two parallel lists with the same key agree.
* `strait` : tables that pass their integrity check and repeat keys.

## Main results

* `forall_partner_iff` : when a lookup in parallel lists finds every row.
* `forall_find?_iff_nodup` : when a lookup in a table of distinct rows finds every row.
* `lookups_undo_iff` : when the lookups of intact tables find every row.
* `lookups_strait` : rows that they miss.
-/

namespace SeedLogic

/-! ### Parallel lists -/

/-- Rows of two parallel lists that have the same key have the same value. -/
def Determines (keys values : List String) : Prop :=
  ∀ (i j : Nat) (key : String), keys[i]? = some key → keys[j]? = some key →
    values[i]? = values[j]?

section Parallel

variable {keys values : List String}

/-- Keys that are not repeated determine the values. -/
theorem determines_of_nodup (h : keys.Nodup) : Determines keys values := by
  intro i j key hi hj
  obtain ⟨hlt, -⟩ := List.getElem?_eq_some_iff.1 hi
  rw [(List.getElem?_inj hlt h).1 (hi.trans hj.symm)]

/-- The partner of the first row with a key is the partner of every row with this key exactly if the
keys determine the values. -/
theorem forall_partner_iff :
    (∀ (i : Nat) (key : String), keys[i]? = some key →
      ((keys.findIdx? (· = key)).bind fun j => values[j]?) = values[i]?) ↔
      Determines keys values := by
  constructor
  · intro h i j key hi hj
    rw [← h i key hi, h j key hj]
  · intro h i key hi
    cases hfind : keys.findIdx? (· = key) with
    | none =>
      have hmiss := List.findIdx?_eq_none_iff.1 hfind key (List.mem_of_getElem? hi)
      exact absurd hmiss (by simp)
    | some j =>
      obtain ⟨hlt, hkey, -⟩ := List.findIdx?_eq_some_iff_getElem.1 hfind
      have hj : keys[j]? = some key :=
        List.getElem?_eq_some_iff.2 ⟨hlt, of_decide_eq_true hkey⟩
      exact h j i key hj hi

end Parallel

/-! ### Tables of rows -/

/-- In a table without equal rows every row is found under its name exactly if no name is
repeated. -/
theorem forall_find?_iff_nodup {α : Type} {name : α → String} {rows : List α} (h : rows.Nodup) :
    (∀ row ∈ rows, rows.find? (fun other => name other = name row) = some row) ↔
      (rows.map name).Nodup := by
  constructor
  · intro hfind
    refine h.map_on fun row hrow other hother hname => ?_
    have hsame := hfind row hrow
    rw [hname, hfind other hother] at hsame
    exact (Option.some.inj hsame).symm
  · exact fun hnames row hrow => GameData.find?_eq_some_of_nodup hnames hrow

/-! ### Intact tables -/

/-- The boss that is found for a dungeon is one of the bosses of this dungeon, and there is one if
the dungeon has any. -/
theorem GameData.exists_bossOfDungeon? {data : GameData} {boss : RequiredBoss}
    (h : boss ∈ data.requiredBosses) :
    ∃ found ∈ data.requiredBosses, data.bossOfDungeon? boss.dungeon = some found ∧
      found.dungeon = boss.dungeon := by
  rw [bossOfDungeon?]
  cases hfind : data.requiredBosses.find? (·.dungeon = boss.dungeon) with
  | none => exact absurd (List.find?_eq_none.1 hfind boss h) (by simp)
  | some found =>
    exact ⟨found, List.mem_of_find?_eq_some hfind, rfl, by simpa using List.find?_some hfind⟩

/-- In tables that pass their integrity check there are as many charts as islands. The island of
every chart is the one beside it exactly if charts determine islands, and the chart of every island
is the one beside it exactly if islands determine charts. Every boss is found under its atom. Under
its dungeon a boss of this dungeon is found, and then under the atom of that boss the same one. It
is the boss itself for all bosses exactly if no dungeon is listed twice. -/
theorem lookups_undo_iff {data : GameData} (h : data.validate = .ok ()) :
    data.charts.length = data.islands.length ∧
    ((∀ (i : Nat) (chart : String), data.charts[i]? = some chart →
        data.islandOfChart? chart = data.islands[i]?) ↔
      Determines data.charts data.islands) ∧
    ((∀ (i : Nat) (island : String), data.islands[i]? = some island →
        data.chartOfIsland? island = data.charts[i]?) ↔
      Determines data.islands data.charts) ∧
    (∀ boss ∈ data.requiredBosses, data.bossOfRequirement? boss.requirement = some boss ∧
      ∃ found, data.bossOfDungeon? boss.dungeon = some found ∧ found.dungeon = boss.dungeon ∧
        data.bossOfRequirement? found.requirement = some found) ∧
    ((∀ boss ∈ data.requiredBosses, data.bossOfDungeon? boss.dungeon = some boss) ↔
      (data.requiredBosses.map (·.dungeon)).Nodup) := by
  have hintact : data.Intact := GameData.validate_eq_ok_iff.1 h
  refine ⟨hintact.chartCount, forall_partner_iff, forall_partner_iff, fun boss hboss => ?_,
    forall_find?_iff_nodup hintact.bossAtoms.of_map⟩
  obtain ⟨found, hmem, hfound, hdungeon⟩ := GameData.exists_bossOfDungeon? hboss
  exact ⟨hintact.bossOfRequirement?_requirement hboss, found, hfound, hdungeon,
    hintact.bossOfRequirement?_requirement hmem⟩

/-- Tables of a bay with two charts and two dungeons that have a boss. -/
def bay : GameData where
  requiredBosses := [{ dungeon := "Crypt", requirement := "Can Defeat Lich" },
    { dungeon := "Vault", requirement := "Can Defeat Keeper" }]
  dungeons := [{ name := "Vault", shortName := "V" }, { name := "Crypt", shortName := "C" }]
  charts := ["Treasure Chart 1", "Triforce Chart 1"]
  islands := ["North Reef", "South Reef"]

theorem lookups_undo_iff_bay :
    bay.validate = .ok () ∧ Determines bay.charts bay.islands ∧
      Determines bay.islands bay.charts ∧ (bay.requiredBosses.map (·.dungeon)).Nodup ∧
      bay.islandOfChart? "Triforce Chart 1" = some "South Reef" ∧
      bay.chartOfIsland? "South Reef" = some "Triforce Chart 1" ∧
      ∀ boss ∈ bay.requiredBosses, bay.bossOfDungeon? boss.dungeon = some boss ∧
        bay.bossOfRequirement? boss.requirement = some boss := by
  have hvalid : bay.validate = .ok () := by decide +kernel
  have hcharts : Determines bay.charts bay.islands := determines_of_nodup (by decide)
  have hislands : Determines bay.islands bay.charts := determines_of_nodup (by decide)
  have hdungeons : (bay.requiredBosses.map (·.dungeon)).Nodup := by decide
  obtain ⟨-, hisland, hchart, hbosses, hdungeon⟩ := lookups_undo_iff hvalid
  exact ⟨hvalid, hcharts, hislands, hdungeons, hisland.2 hcharts 1 _ rfl,
    hchart.2 hislands 1 _ rfl, fun boss hboss =>
      ⟨hdungeon.2 hdungeons boss hboss, (hbosses boss hboss).1⟩⟩

/-- Tables of a strait in which a chart is listed for two islands, an island for two charts and a
dungeon for two bosses. -/
def strait : GameData where
  requiredBosses := [{ dungeon := "Crypt", requirement := "Can Defeat Lich" },
    { dungeon := "Crypt", requirement := "Can Defeat Lich Again" }]
  dungeons := [{ name := "Crypt", shortName := "C" }]
  charts := ["Treasure Chart 1", "Treasure Chart 1", "Treasure Chart 2"]
  islands := ["North Reef", "South Reef", "North Reef"]

/-- The tables of the strait pass their integrity check. The second chart is looked up as the
first one and the third island as the first one, so that neither finds what is beside it, and the
second boss is not found under its dungeon. -/
theorem lookups_strait :
    strait.validate = .ok () ∧
    (strait.charts[1]? = some "Treasure Chart 1" ∧ strait.islands[1]? = some "South Reef" ∧
      strait.islandOfChart? "Treasure Chart 1" = some "North Reef") ∧
    (strait.islands[2]? = some "North Reef" ∧ strait.charts[2]? = some "Treasure Chart 2" ∧
      strait.chartOfIsland? "North Reef" = some "Treasure Chart 1") ∧
    let boss : RequiredBoss := { dungeon := "Crypt", requirement := "Can Defeat Lich Again" }
    boss ∈ strait.requiredBosses ∧ strait.bossOfRequirement? boss.requirement = some boss ∧
      strait.bossOfDungeon? boss.dungeon ≠ some boss := by
  decide +kernel

end SeedLogic
