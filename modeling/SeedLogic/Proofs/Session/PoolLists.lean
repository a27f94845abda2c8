import Mathlib.Data.List.Nodup
import Mathlib.Data.List.Perm.Subperm
import SeedLogic.Proofs.Session.Pairing

/-!
# The lists of shuffled entrances

The entrances that the options shuffle are listed by pool, all together, by the entrances or exits
with which one may be paired, and by zone. In intact tables no two entrances share a name, so that a
list of names in the order of the table is determined by which entrances it has. The pools have each
shuffled entrance once, in one of them, and every other list has some part of one pool or of both,
in the same order.

## Main definitions

* `EntrancePools.Lists` : names list the shuffled entrances with a property.

## Main results

* `EntrancePools.Lists.unique` : a property determines the list.
* `EntrancePools.lists_filter_iff` : what a filtered pool lists.
* `EntrancePools.mem_allNames_iff`, `EntrancePools.nodup_allNames` : each shuffled entrance is
  listed once.
* `EntrancePools.exists_partners` : the lists for an entrance or exit.
* `pool_lists_partition` : all lists of intact tables.
-/

namespace SeedLogic

namespace EntrancePools

variable {pools : EntrancePools} {P : EntranceEntry → Prop} {names others : List String}

/-- The names are those of the shuffled entrances with a property, in the order of the table. -/
structure Lists (pools : EntrancePools) (P : EntranceEntry → Prop) (names : List String) :
    Prop where
  ordered : names.Sublist (pools.data.entrances.map (·.internalName))
  listed : ∀ entry ∈ pools.data.entrances,
    (entry.internalName ∈ names ↔ pools.Shuffles entry ∧ P entry)

/-! ### Lists of intact tables -/

section Intact

variable (h : pools.data.Intact)

include h

/-- Names of the table in its order are not repeated. -/
theorem Lists.nodup (hnames : pools.Lists P names) : names.Nodup :=
  hnames.ordered.nodup h.entranceNames

omit h in
private theorem Lists.subset (hnames : pools.Lists P names) (hothers : pools.Lists P others) :
    names ⊆ others := by
  intro name hname
  obtain ⟨entry, hentry, rfl⟩ := List.mem_map.1 (hnames.ordered.subset hname)
  exact (hothers.listed entry hentry).2 ((hnames.listed entry hentry).1 hname)

/-- A property determines the list of the shuffled entrances that have it. -/
theorem Lists.unique (hnames : pools.Lists P names) (hothers : pools.Lists P others) :
    names = others := by
  refine (h.entranceNames.perm_iff_eq_of_sublist hnames.ordered hothers.ordered).1 ?_
  refine (List.perm_ext_iff_of_nodup (hnames.nodup h) (hothers.nodup h)).2 fun name => ?_
  exact ⟨fun hname => hnames.subset hothers hname, fun hname => hothers.subset hnames hname⟩

/-- Entrances with the same name are the same. -/
private theorem eq_of_internalName {entry other : EntranceEntry}
    (hentry : entry ∈ pools.data.entrances) (hother : other ∈ pools.data.entrances)
    (hname : entry.internalName = other.internalName) : entry = other :=
  List.inj_on_of_nodup_map h.entranceNames hentry hother hname

/-- A filtered pool lists the shuffled entrances of the pool that pass the filter. -/
theorem lists_filter_iff (pool : EntrancePool) (test : EntranceEntry → Bool)
    (htest : ∀ entry, P entry ↔ entry.category.pool = pool ∧ test entry = true) :
    pools.Lists P names ↔ names = ((pools.randomized pool).filter test).map (·.internalName) := by
  have hmem (entry : EntranceEntry) :
      entry ∈ (pools.randomized pool).filter test ↔ pools.Shuffles entry ∧ P entry := by
    simp only [randomized, List.mem_filter, Bool.and_eq_true, decide_eq_true_eq, Shuffles, htest]
    tauto
  have hfiltered :
      pools.Lists P (((pools.randomized pool).filter test).map (·.internalName)) := by
    refine ⟨(List.filter_sublist.trans List.filter_sublist).map _, fun entry hentry => ?_⟩
    rw [List.mem_map, ← hmem]
    constructor
    · rintro ⟨other, hother, hname⟩
      exact eq_of_internalName h ((hmem other).1 hother).1.1 hentry hname ▸ hother
    · exact fun hentry => ⟨entry, hentry, rfl⟩
  exact ⟨fun hnames => hnames.unique h hfiltered, fun hnames => hnames ▸ hfiltered⟩

/-- A pool lists its shuffled entrances. -/
theorem lists_randomizedNames_iff (pool : EntrancePool) :
    pools.Lists (·.category.pool = pool) names ↔ names = pools.randomizedNames pool := by
  have hall : (pools.randomized pool).filter (fun _ => true) = pools.randomized pool :=
    List.filter_true _
  rw [lists_filter_iff h pool (fun _ => true) (by simp), hall, randomizedNames]

/-- The entrances of both pools are those that are shuffled. -/
theorem mem_allNames_iff {name : String} :
    name ∈ pools.allNames ↔ ∃ entry, pools.Shuffles entry ∧ entry.internalName = name := by
  constructor
  · intro hname
    rw [allNames, List.mem_append] at hname
    rcases hname with hname | hname <;>
    · obtain ⟨entry, hentry, rfl⟩ := List.mem_map.1 hname
      obtain ⟨hmem, hshuffled⟩ := List.mem_filter.1 hentry
      exact ⟨entry, ⟨hmem, (Bool.and_eq_true_iff.1 hshuffled).2⟩, rfl⟩
  · rintro ⟨entry, hentry, rfl⟩
    exact mem_allNames h hentry

/-- Each shuffled entrance is in one pool and is listed once. -/
theorem nodup_allNames : pools.allNames.Nodup := by
  have hlists (pool : EntrancePool) :
      pools.Lists (·.category.pool = pool) (pools.randomizedNames pool) :=
    (lists_randomizedNames_iff h pool).2 rfl
  refine List.nodup_append'.2 ⟨(hlists .dungeon).nodup h, (hlists .island).nodup h, ?_⟩
  intro name hdungeon hisland
  obtain ⟨entry, hentry, rfl⟩ := List.mem_map.1 ((hlists .dungeon).ordered.subset hdungeon)
  have hfirst := (((hlists .dungeon).listed entry hentry).1 hdungeon).2
  have hsecond := (((hlists .island).listed entry hentry).1 hisland).2
  rw [hfirst] at hsecond
  cases hsecond

/-! ### Lists for an entrance or exit -/

/-- The lists for an entrance or exit of the tables exist. They leave out of its partners the
entrances that lie behind the exit, or the exit that is found for the entrance. -/
theorem exists_partners {entry : EntranceEntry} (hentry : entry ∈ pools.data.entrances) :
    pools.possible entry.internalName = .ok (pools.partners entry) ∧
    (∃ entrances, pools.entrancesForExit entry.internalName = .ok entrances ∧
      entrances.Sublist (pools.partners entry) ∧ ∀ name ∈ pools.partners entry,
        (name ∈ entrances ↔ ¬pools.data.LiesBehind name entry.internalName)) ∧
    ∃ exits, pools.exitsForEntrance entry.internalName = .ok exits ∧
      exits.Sublist (pools.partners entry) ∧ ∀ name ∈ pools.partners entry,
        (name ∈ exits ↔ pools.data.parentExit? entry.internalName ≠ some name) := by
  obtain ⟨entrances, hentrances, hsublist, hmem⟩ := exists_entrancesForExit h hentry
  obtain ⟨exits, hexits, hsublist', hmem'⟩ := exists_exitsForEntrance h hentry
  exact ⟨possible_internalName h hentry,
    ⟨entrances, hentrances, hsublist, fun name hname => (hmem name).trans (and_iff_right hname)⟩,
    exits, hexits, hsublist', fun name hname => (hmem' name).trans (and_iff_right hname)⟩

omit h in
/-- There are no lists for names that the tables do not have. -/
theorem partners_of_unknown {name : String}
    (hname : ∀ entry ∈ pools.data.entrances, entry.internalName ≠ name) :
    pools.possible name = .error (.unknownEntrance name) ∧
    pools.entrancesForExit name = .error (.unknownEntrance name) ∧
    pools.exitsForEntrance name = .error (.unknownEntrance name) := by
  have hnone : pools.data.entrance? name = none :=
    List.find?_eq_none.2 fun entry hentry => by simpa using hname entry hentry
  have hpossible : pools.possible name = .error (.unknownEntrance name) := by
    rw [possible, hnone]
    rfl
  exact ⟨hpossible, by rw [entrancesForExit, hpossible]; rfl,
    by rw [exitsForEntrance, hpossible]; rfl⟩

/-! ### Lists for a zone -/

/-- The exits into a zone are those of the dungeon pool and those of the island pool, which no exit
is in both. -/
theorem exits_partition (zone : String) :
    (pools.exitsForDungeon zone).Disjoint (pools.exitsForIsland zone) ∧
    (pools.exitsForDungeon zone ++ pools.exitsForIsland zone).Sublist pools.allNames ∧
    ∀ entry, pools.Shuffles entry →
      (entry.internalName ∈ pools.exitsForDungeon zone ++ pools.exitsForIsland zone ↔
        entry.exitZone = zone) := by
  have hsublist : (pools.exitsForDungeon zone ++ pools.exitsForIsland zone).Sublist
      pools.allNames :=
    (List.filter_sublist.map _).append (List.filter_sublist.map _)
  refine ⟨List.disjoint_of_nodup_append (hsublist.nodup (nodup_allNames h)), hsublist,
    fun entry hentry => ?_⟩
  have hexits (pool : EntrancePool) :
      pools.Lists (fun exit => exit.category.pool = pool ∧ exit.exitZone = zone)
        (((pools.randomized pool).filter (·.exitZone = zone)).map (·.internalName)) :=
    (lists_filter_iff h pool (·.exitZone = zone) (by simp)).2 rfl
  rw [List.mem_append, exitsForDungeon, exitsForIsland, (hexits .dungeon).listed entry hentry.1,
    (hexits .island).listed entry hentry.1]
  cases entry.category.pool <;> simp [hentry]

/-- The entrances in a zone are those of the dungeon pool, followed by those of the island pool. -/
theorem entrancesForIsland_eq_append_iff (zone : String) :
    pools.Lists (fun entry => entry.category.pool = .island ∧ entry.entranceZone = zone) names ↔
      pools.entrancesForIsland zone = pools.entrancesForDungeon zone ++ names := by
  rw [lists_filter_iff h .island (·.entranceZone = zone) (by simp), entrancesForIsland,
    entrancesForDungeon, List.filter_append, List.map_append, List.append_cancel_left_eq, eq_comm]

end Intact

end EntrancePools

/-- In tables that pass their integrity check, under all settings: a pool lists its shuffled
entrances in the order of the table, and all shuffled entrances are listed once, the dungeon pool
first. One of the tables may be paired with all of them when the pools are mixed and else with those
of its pool; from these, in the same order, the entrances that lie behind an exit are left out for
the exit, and the exit behind which an entrance is found to lie is left out for the entrance. Names
that the tables do not have are refused. The exits into a zone are listed by pool, and the entrances
in a zone are those of the dungeon pool followed by those of the island pool. -/
theorem pool_lists_partition {data : GameData} (h : data.validate = .ok ()) (settings : Settings) :
    let pools : EntrancePools := { data, settings }
    (∀ pool names, pools.Lists (·.category.pool = pool) names ↔
      names = pools.randomizedNames pool) ∧
    (pools.allNames = pools.randomizedNames .dungeon ++ pools.randomizedNames .island ∧
      pools.allNames.Nodup ∧
      ∀ name, name ∈ pools.allNames ↔
        ∃ entry, pools.Shuffles entry ∧ entry.internalName = name) ∧
    (∀ entry ∈ data.entrances,
      (pools.partners entry).Sublist pools.allNames ∧
      pools.possible entry.internalName = .ok (pools.partners entry) ∧
      (∃ entrances, pools.entrancesForExit entry.internalName = .ok entrances ∧
        entrances.Sublist (pools.partners entry) ∧ ∀ name ∈ pools.partners entry,
          (name ∈ entrances ↔ ¬data.LiesBehind name entry.internalName)) ∧
      ∃ exits, pools.exitsForEntrance entry.internalName = .ok exits ∧
        exits.Sublist (pools.partners entry) ∧ ∀ name ∈ pools.partners entry,
          (name ∈ exits ↔ data.parentExit? entry.internalName ≠ some name)) ∧
    (∀ name, (∀ entry ∈ data.entrances, entry.internalName ≠ name) →
      pools.possible name = .error (.unknownEntrance name) ∧
      pools.entrancesForExit name = .error (.unknownEntrance name) ∧
      pools.exitsForEntrance name = .error (.unknownEntrance name)) ∧
    ∀ zone,
      ((pools.exitsForDungeon zone).Disjoint (pools.exitsForIsland zone) ∧
        (pools.exitsForDungeon zone ++ pools.exitsForIsland zone).Sublist pools.allNames ∧
        ∀ entry, pools.Shuffles entry →
          (entry.internalName ∈ pools.exitsForDungeon zone ++ pools.exitsForIsland zone ↔
            entry.exitZone = zone)) ∧
      (∀ names, pools.Lists (fun entry => entry.category.pool = .dungeon ∧
        entry.entranceZone = zone) names ↔ names = pools.entrancesForDungeon zone) ∧
      ∀ names, pools.Lists (fun entry => entry.category.pool = .island ∧
        entry.entranceZone = zone) names ↔
          pools.entrancesForIsland zone = pools.entrancesForDungeon zone ++ names := by
  intro pools
  have hintact : pools.data.Intact := GameData.validate_eq_ok_iff.1 h
  refine ⟨fun pool _ => EntrancePools.lists_randomizedNames_iff hintact pool,
    ⟨rfl, EntrancePools.nodup_allNames hintact, fun _ => EntrancePools.mem_allNames_iff hintact⟩,
    fun entry hentry => ⟨EntrancePools.partners_sublist entry,
      EntrancePools.exists_partners hintact hentry⟩,
    fun _ hname => EntrancePools.partners_of_unknown hname,
    fun zone => ⟨EntrancePools.exits_partition hintact zone,
      fun _ => EntrancePools.lists_filter_iff hintact .dungeon (·.entranceZone = zone) (by simp),
      fun _ => EntrancePools.entrancesForIsland_eq_append_iff hintact zone⟩⟩

/-- Tables of a coast whose caves are listed around the gate of a dungeon. A grotto lies behind one
of the caves. -/
def coast : GameData where
  macros := .ofList [("Can Access Cliff Cave", "Nothing"), ("Can Access Keep Gate", "Nothing"),
    ("Can Access Grotto", "Lantern")]
  entrances := [caveEntry "Cliff Cave" .cave, caveEntry "Keep Gate" .dungeon,
    caveEntry "Grotto" .innerCave]
  nestedEntrances := .ofList [("Cliff Cave", ["Grotto"])]

/-- Settings under which caves are shuffled together with dungeons. -/
def mixedCoast : Settings where
  options := .ofList [(OptionName.randomizeDungeonEntrances, .toggle true),
    (OptionName.randomizeSecretCaveEntrances, .toggle true),
    (OptionName.randomizeSecretCaveInnerEntrances, .toggle true),
    (OptionName.mixEntrances, .choice OptionChoice.mixDungeonsAndCavesAndFountains)]

theorem pool_lists_partition_coast :
    let pools : EntrancePools := { data := coast, settings := mixedCoast }
    coast.validate = .ok () ∧ pools.allNames = ["Keep Gate", "Cliff Cave", "Grotto"] ∧
      pools.allNames.Nodup ∧ caveEntry "Cliff Cave" .cave ∈ coast.entrances ∧
      (∃ entrances, pools.entrancesForExit "Cliff Cave" = .ok entrances ∧
        entrances.Sublist pools.allNames ∧ "Keep Gate" ∈ entrances ∧ "Grotto" ∉ entrances) ∧
      pools.possible "Reef" = .error (.unknownEntrance "Reef") ∧
      pools.entrancesForIsland "Isle" =
        pools.entrancesForDungeon "Isle" ++ ["Cliff Cave", "Grotto"] := by
  intro pools
  have hvalid : coast.validate = .ok () := by decide +kernel
  have hcave : caveEntry "Cliff Cave" .cave ∈ coast.entrances := by decide
  have hpartners : pools.partners (caveEntry "Cliff Cave" .cave) = pools.allNames :=
    if_pos (by decide +kernel)
  have hall : pools.allNames = ["Keep Gate", "Cliff Cave", "Grotto"] := by decide +kernel
  have hbehind (name : String) : coast.LiesBehind name "Cliff Cave" ↔ name = "Grotto" := by
    rw [GameData.LiesBehind, show coast.nestedEntrances.get? "Cliff Cave" = some ["Grotto"] by
      decide +kernel]
    simp
  have hisles : pools.Lists
      (fun entry => entry.category.pool = .island ∧ entry.entranceZone = "Isle")
      ["Cliff Cave", "Grotto"] :=
    (EntrancePools.lists_filter_iff (GameData.validate_eq_ok_iff.1 hvalid) .island
      (·.entranceZone = "Isle") (by simp)).2 (by decide +kernel)
  obtain ⟨-, ⟨-, hnodup, -⟩, hlists, hunknown, hzones⟩ := pool_lists_partition hvalid mixedCoast
  obtain ⟨-, -, ⟨entrances, hentrances, hsublist, hmem⟩, -⟩ := hlists _ hcave
  rw [hpartners] at hsublist hmem
  refine ⟨hvalid, hall, hnodup, hcave, ⟨entrances, hentrances, hsublist, ?_, ?_⟩,
    (hunknown "Reef" (by decide)).1, ((hzones "Isle").2.2 _).1 hisles⟩
  · refine (hmem _ (by rw [hall]; simp)).2 fun hlies => ?_
    exact absurd ((hbehind "Keep Gate").1 hlies) (by decide)
  · exact fun hgrotto => (hmem _ (by rw [hall]; simp)).1 hgrotto ((hbehind "Grotto").2 rfl)

end SeedLogic
