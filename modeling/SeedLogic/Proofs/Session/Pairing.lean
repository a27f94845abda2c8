import Mathlib.Control.Monad.Basic
import SeedLogic.Proofs.Session.Runs
import SeedLogic.Proofs.Tables.Integrity

/-!
# Pairs of entrances and exits

A session lists the exits to which an entrance may lead, and the entrances that may lead to an
exit. Both lists start from the shuffled entrances of a pool, or of both pools when these are
mixed, and leave out pairs in which the entrance lies behind the exit. They find those pairs in
different ways. The entrances of an exit leave out all that the nesting table lists behind it. The
exits of an entrance leave out one exit, the first one in the nesting table behind which the
entrance lies.

So the two lists agree on a pair unless the entrance lies behind the exit and behind an earlier
one, too. In particular they agree on all pairs when every entrance lies behind one exit at most.
The integrity check does not ask for that: an entrance of the tables `caves` lies behind two exits,
and the later one is offered to it.

## Main definitions

* `GameData.LiesBehind` : the nesting table lists an entrance behind an exit.
* `EntrancePools.Shuffles`, `EntrancePools.Shares` : an entrance is shuffled, and two of them are
  shuffled together.
* `EntrancePools.partners` : those with which one may be paired before any is left out.
* `caves` : tables in which an entrance lies behind two exits.

## Main results

* `GameData.parentExit?_eq_some_iff` : the exit that is found is the first one.
* `EntrancePools.exists_entrancesForExit`, `EntrancePools.exists_exitsForEntrance` : the two lists.
* `pairing_agrees_iff` : when the lists agree, after every run.
* `pairing_disagrees_caves` : a pair on which they differ.
-/

namespace SeedLogic

open Session

/-! ### The nesting table -/

namespace GameData

variable {data : GameData} {entrance exit : String}

/-- The nesting table lists the entrance behind the exit. -/
def LiesBehind (data : GameData) (entrance exit : String) : Prop :=
  entrance ∈ (data.nestedEntrances.get? exit).getD []

theorem liesBehind_iff_mem_entries :
    data.LiesBehind entrance exit ↔
      ∃ nested, (exit, nested) ∈ data.nestedEntrances.entries ∧ entrance ∈ nested := by
  simp only [LiesBehind, Dict.mem_entries_iff_get?]
  cases data.nestedEntrances.get? exit <;> simp

/-- The exit that is found for an entrance is the first one behind which it lies. -/
theorem parentExit?_eq_some_iff :
    data.parentExit? entrance = some exit ↔
      data.LiesBehind entrance exit ∧ ∀ other, data.LiesBehind entrance other → ¬other < exit := by
  -- The exit that the search stops at has the entrance behind it, and earlier ones do not.
  have hfirst (exit : String) (hfound : data.parentExit? entrance = some exit) :
      data.LiesBehind entrance exit ∧
        ∀ other, data.LiesBehind entrance other → ¬other < exit := by
    obtain ⟨⟨found, nested⟩, hfind, rfl⟩ := Option.map_eq_some_iff.1 hfound
    obtain ⟨hnested, front, back, hentries, hfront⟩ := List.find?_eq_some_iff_append.1 hfind
    have hsorted := data.nestedEntrances.sorted
    rw [hentries, List.pairwise_append] at hsorted
    refine ⟨liesBehind_iff_mem_entries.2 ⟨nested, by simp [hentries], by simpa using hnested⟩,
      fun other hother hlt => ?_⟩
    obtain ⟨behind, hmem, hbehind⟩ := liesBehind_iff_mem_entries.1 hother
    rw [hentries, List.mem_append, List.mem_cons] at hmem
    rcases hmem with hmem | hmem | hmem
    · simpa [hbehind] using hfront _ hmem
    · cases hmem
      exact Std.lt_irrefl hlt
    · exact Std.lt_irrefl (Std.lt_trans hlt ((List.pairwise_cons.1 hsorted.2.1).1 _ hmem))
  refine ⟨hfirst exit, fun ⟨hbehind, hleast⟩ => ?_⟩
  cases hfound : data.parentExit? entrance with
  | none =>
    obtain ⟨nested, hmem, hnested⟩ := liesBehind_iff_mem_entries.1 hbehind
    have hnone := List.find?_eq_none.1 (Option.map_eq_none_iff.1 hfound) _ hmem
    exact absurd (by simpa using hnested) hnone
  | some found =>
    obtain ⟨hfoundBehind, hfoundLeast⟩ := hfirst found hfound
    rcases Std.lt_trichotomy found exit with hlt | rfl | hlt
    · exact absurd hlt (hleast found hfoundBehind)
    · rfl
    · exact absurd hlt (hfoundLeast exit hbehind)

end GameData

/-! ### Pools of intact tables -/

namespace EntrancePools

variable {pools : EntrancePools} {entrance exit : EntranceEntry}

/-- An entrance of the tables that the options shuffle. -/
def Shuffles (pools : EntrancePools) (entry : EntranceEntry) : Prop :=
  entry ∈ pools.data.entrances ∧ pools.settings.isEnabled entry.category.option = true

/-- Whether the entrances of both pools are shuffled together. -/
def isMixed (pools : EntrancePools) : Bool :=
  pools.settings.equals OptionName.mixEntrances OptionChoice.mixDungeonsAndCavesAndFountains

/-- The two entrances are shuffled together. -/
def Shares (pools : EntrancePools) (entrance exit : EntranceEntry) : Prop :=
  pools.isMixed = true ∨ entrance.category.pool = exit.category.pool

theorem shares_comm : pools.Shares entrance exit ↔ pools.Shares exit entrance :=
  or_congr Iff.rfl eq_comm

/-- The names of a pool are among all names, in the same order. -/
theorem randomizedNames_sublist (pool : EntrancePool) :
    (pools.randomizedNames pool).Sublist pools.allNames := by
  cases pool with
  | dungeon => exact List.sublist_append_left _ _
  | island => exact List.sublist_append_right _ _

/-- The entrances or exits with which one of the tables may be paired before any is left out are all
shuffled ones when the pools are mixed, and else those of its pool. -/
def partners (pools : EntrancePools) (entry : EntranceEntry) : List String :=
  if pools.isMixed then pools.allNames else pools.randomizedNames entry.category.pool

theorem partners_sublist (entry : EntranceEntry) :
    (pools.partners entry).Sublist pools.allNames := by
  rw [partners]
  split
  · exact .refl _
  · exact randomizedNames_sublist entry.category.pool

section Intact

variable (h : pools.data.Intact)

include h

/-- Before any is left out, an entrance or exit of the tables has its partners. -/
theorem possible_internalName {entry : EntranceEntry} (hentry : entry ∈ pools.data.entrances) :
    pools.possible entry.internalName = .ok (pools.partners entry) := by
  rw [possible, h.entrance?_internalName hentry, partners]
  exact (apply_ite _ _ _ _).symm

/-- The entrances that may lead to an exit are its partners that do not lie behind it. -/
theorem exists_entrancesForExit (hexit : exit ∈ pools.data.entrances) :
    ∃ names, pools.entrancesForExit exit.internalName = .ok names ∧
      names.Sublist (pools.partners exit) ∧ ∀ name, name ∈ names ↔
        name ∈ pools.partners exit ∧ ¬pools.data.LiesBehind name exit.internalName := by
  rw [entrancesForExit, possible_internalName h hexit]
  refine ⟨_, rfl, List.filter_sublist, fun name => ?_⟩
  rw [List.mem_filter]
  refine and_congr_right fun hname => ?_
  have hall : name ∈ pools.allNames := (partners_sublist exit).subset hname
  simp [nestedBehind, GameData.LiesBehind, hall]

/-- The exits to which an entrance may lead are its partners but for the first one behind which it
lies. -/
theorem exists_exitsForEntrance (hentrance : entrance ∈ pools.data.entrances) :
    ∃ names, pools.exitsForEntrance entrance.internalName = .ok names ∧
      names.Sublist (pools.partners entrance) ∧ ∀ name, name ∈ names ↔
        name ∈ pools.partners entrance ∧
          pools.data.parentExit? entrance.internalName ≠ some name := by
  rw [exitsForEntrance, possible_internalName h hentrance]
  cases pools.data.parentExit? entrance.internalName with
  | none => exact ⟨_, rfl, .refl _, fun name => by simp⟩
  | some parent =>
    refine ⟨_, rfl, List.filter_sublist, fun name => ?_⟩
    rw [List.mem_filter, decide_eq_true_iff, Ne, Ne, Option.some_inj, eq_comm]

variable (hentrance : pools.Shuffles entrance) (hexit : pools.Shuffles exit)

include hentrance

/-- A shuffled entrance is in its own pool alone. -/
theorem mem_randomizedNames (pool : EntrancePool) :
    entrance.internalName ∈ pools.randomizedNames pool ↔ entrance.category.pool = pool := by
  simp only [randomizedNames, randomized, List.mem_map, List.mem_filter, Bool.and_eq_true,
    decide_eq_true_eq]
  constructor
  · rintro ⟨other, ⟨hother, hpool, -⟩, hname⟩
    obtain rfl : other = entrance := by
      have hfind := h.entrance?_internalName hother
      rw [hname, h.entrance?_internalName hentrance.1] at hfind
      exact (Option.some.inj hfind).symm
    exact hpool
  · intro hpool
    exact ⟨entrance, ⟨hentrance.1, hpool, hentrance.2⟩, rfl⟩

theorem mem_allNames : entrance.internalName ∈ pools.allNames := by
  rw [allNames, List.mem_append, mem_randomizedNames h hentrance, mem_randomizedNames h hentrance]
  cases entrance.category.pool <;> simp

/-- The partners of an entrance or exit are the shuffled entrances that are shuffled together with
it. -/
theorem mem_partners_iff :
    entrance.internalName ∈ pools.partners exit ↔ pools.Shares entrance exit := by
  rw [partners, Shares]
  cases pools.isMixed with
  | true => exact iff_of_true (mem_allNames h hentrance) (Or.inl rfl)
  | false => simp [mem_randomizedNames h hentrance]

include hexit

/-- Both lists are found. They agree on a pair unless the entrance lies behind the exit and behind
an earlier one. -/
theorem agree_iff : ∃ exits entrances,
    pools.exitsForEntrance entrance.internalName = .ok exits ∧
    pools.entrancesForExit exit.internalName = .ok entrances ∧
    ((exit.internalName ∈ exits ↔ entrance.internalName ∈ entrances) ↔
      ¬(pools.Shares entrance exit ∧
        pools.data.LiesBehind entrance.internalName exit.internalName ∧
        ∃ other < exit.internalName, pools.data.LiesBehind entrance.internalName other)) := by
  obtain ⟨exits, hexits, -, hmemExits⟩ := exists_exitsForEntrance h hentrance.1
  obtain ⟨entrances, hentrances, -, hmemEntrances⟩ := exists_entrancesForExit h hexit.1
  refine ⟨exits, entrances, hexits, hentrances, ?_⟩
  rw [hmemExits, hmemEntrances, mem_partners_iff h hexit, mem_partners_iff h hentrance,
    shares_comm, Ne, GameData.parentExit?_eq_some_iff]
  by_cases hshares : pools.Shares entrance exit
  · by_cases hbehind : pools.data.LiesBehind entrance.internalName exit.internalName
    · simp only [hshares, hbehind, true_and, not_true_eq_false, iff_false, Classical.not_not,
        not_exists, not_and]
      exact forall_congr' fun other => imp_not_comm
    · simp [hshares, hbehind]
  · simp [hshares]

end Intact

end EntrancePools

/-! ### Lists of a session -/

namespace Session

/-- An answer that does not depend on other answers is the same remembered as computed. -/
private theorem Faithful.fst_outcome_answered {s : Session} (h : s.Faithful) {q : Question}
    {result : Except LogicError q.Answer}
    (hcomputed : (s.outcome (Surroundings.session.answer maxExpansionDepth q)).1 = result)
    (hrecomputed : ∀ depth, s.recompute depth q = some result) :
    (s.outcome (answered q)).1 = result := by
  refine fst_outcome_remember _ hcomputed fun answer hget => ?_
  obtain ⟨depth, hdepth⟩ := h.recomputes hget
  exact Option.some.inj ((hrecomputed depth).symm.trans (hdepth depth (Nat.le_refl _)))

/-- A session lists the exits of the pools under its settings. -/
theorem Faithful.fst_perform_randomExitsForEntrance {s : Session} (h : s.Faithful)
    {entrance : String} {names : List String}
    (hnames : s.pools.exitsForEntrance entrance = .ok names) :
    ((Operation.randomExitsForEntrance entrance).perform s).1 = .ok (.texts names) := by
  refine fst_outcome_map _
    ((fst_outcome_audited _ _ _).trans (h.fst_outcome_answered ?_ fun _ => ?_))
  · exact (congrArg Prod.fst (outcome_lift s (s.pools.exitsForEntrance entrance))).trans hnames
  · exact congrArg (fun result => some result) hnames

/-- A session lists the entrances of the pools under its settings. -/
theorem Faithful.fst_perform_randomEntrancesForExit {s : Session} (h : s.Faithful)
    {exit : String} {names : List String} (hnames : s.pools.entrancesForExit exit = .ok names) :
    ((Operation.randomEntrancesForExit exit).perform s).1 = .ok (.texts names) := by
  refine fst_outcome_map _
    ((fst_outcome_audited _ _ _).trans (h.fst_outcome_answered ?_ fun _ => ?_))
  · exact (congrArg Prod.fst (outcome_lift s (s.pools.entrancesForExit exit))).trans hnames
  · exact congrArg (fun result => some result) hnames

end Session

/-- After every run both lists are found for shuffled entrances of the tables. An exit is listed for
an entrance exactly when the entrance is listed for the exit, unless the two are shuffled together
and the entrance lies behind this exit and behind an earlier one. -/
theorem pairing_agrees_iff {settings : Settings} {data : GameData} {start : Session}
    (hstart : (Session.start settings data).1 = .ok start) (operations : List Operation)
    {entrance exit : EntranceEntry} (hentrance : entrance ∈ data.entrances)
    (hexit : exit ∈ data.entrances) :
    let s := start.after operations
    s.settings.isEnabled entrance.category.option = true →
    s.settings.isEnabled exit.category.option = true →
    ∃ exits entrances,
      ((Operation.randomExitsForEntrance entrance.internalName).perform s).1 =
        .ok (.texts exits) ∧
      ((Operation.randomEntrancesForExit exit.internalName).perform s).1 =
        .ok (.texts entrances) ∧
      ((exit.internalName ∈ exits ↔ entrance.internalName ∈ entrances) ↔
        ¬(s.pools.Shares entrance exit ∧
          data.LiesBehind entrance.internalName exit.internalName ∧
          ∃ other < exit.internalName, data.LiesBehind entrance.internalName other)) := by
  intro s hentranceShuffled hexitShuffled
  obtain ⟨hstarted, htables⟩ := Faithful.of_start hstart
  obtain ⟨hfaithful, hdata⟩ := hstarted.after operations
  have hpools : s.pools.data = data := hdata.trans htables
  have hintact : s.pools.data.Intact := by
    rw [hpools]
    exact GameData.validate_eq_ok_iff.1 (validate_of_start hstart)
  have hshuffles : s.pools.Shuffles entrance := ⟨hpools ▸ hentrance, hentranceShuffled⟩
  have hshuffles' : s.pools.Shuffles exit := ⟨hpools ▸ hexit, hexitShuffled⟩
  obtain ⟨exits, entrances, hexits, hentrances, hagree⟩ :=
    EntrancePools.agree_iff hintact hshuffles hshuffles'
  rw [hpools] at hagree
  exact ⟨exits, entrances, hfaithful.fst_perform_randomExitsForEntrance hexits,
    hfaithful.fst_perform_randomEntrancesForExit hentrances, hagree⟩

/-- A cave of the tables `caves`. -/
def caveEntry (name : String) (category : EntranceCategory) : EntranceEntry :=
  { internalName := name, entranceZone := "Isle", exitZone := name, category, entranceName := name,
    exitName := name, entryName := name, macroSuffix := name }

/-- Tables of an isle with two caves that lead into the same grotto, which the nesting table lists
behind both of them. -/
def caves : GameData where
  macros := .ofList [("Can Access Cliff Cave", "Nothing"), ("Can Access Shore Cave", "Nothing"),
    ("Can Access Grotto", "Lantern")]
  entrances := [caveEntry "Cliff Cave" .cave, caveEntry "Shore Cave" .cave,
    caveEntry "Grotto" .innerCave]
  nestedEntrances := .ofList [("Cliff Cave", ["Grotto"]), ("Shore Cave", ["Grotto"])]

/-- Settings under which all caves are shuffled. -/
def shuffledCaves : Settings where
  options := .ofList [(OptionName.randomizeSecretCaveEntrances, .toggle true),
    (OptionName.randomizeSecretCaveInnerEntrances, .toggle true)]

theorem pairing_agrees_iff_caves :
    (Session.start shuffledCaves caves).1 = .ok (initial shuffledCaves caves) ∧
    let s := initial shuffledCaves caves
    ∃ exits entrances,
      ((Operation.randomExitsForEntrance "Grotto").perform s).1 = .ok (.texts exits) ∧
      ((Operation.randomEntrancesForExit "Cliff Cave").perform s).1 = .ok (.texts entrances) ∧
      ("Cliff Cave" ∈ exits ↔ "Grotto" ∈ entrances) :=
  have hstart : (Session.start shuffledCaves caves).1 = .ok (initial shuffledCaves caves) :=
    start_of_validate shuffledCaves (by decide +kernel)
  ⟨hstart, by
    obtain ⟨exits, entrances, hexits, hentrances, hagree⟩ := pairing_agrees_iff hstart []
      (show caveEntry "Grotto" .innerCave ∈ caves.entrances by decide)
      (show caveEntry "Cliff Cave" .cave ∈ caves.entrances by decide)
      (by decide +kernel) (by decide +kernel)
    -- The cliff cave is the first exit behind which the grotto lies.
    refine ⟨exits, entrances, hexits, hentrances,
      hagree.2 fun ⟨_, _, other, hlt, hother⟩ => ?_⟩
    obtain ⟨-, hfirst⟩ := GameData.parentExit?_eq_some_iff.1
      (show caves.parentExit? "Grotto" = some "Cliff Cave" by decide +kernel)
    exact hfirst other hother hlt⟩

/-- The shore cave is offered as an exit of the grotto, although the grotto, which lies behind it,
is not offered as an entrance to it. -/
theorem pairing_disagrees_caves :
    (Session.start shuffledCaves caves).1 = .ok (initial shuffledCaves caves) ∧
    let s := initial shuffledCaves caves
    ((Operation.randomExitsForEntrance "Grotto").perform s).1 =
      .ok (.texts ["Shore Cave", "Grotto"]) ∧
    ((Operation.randomEntrancesForExit "Shore Cave").perform s).1 =
      .ok (.texts ["Cliff Cave", "Shore Cave"]) :=
  ⟨start_of_validate shuffledCaves (by decide +kernel), by decide +kernel⟩

end SeedLogic
