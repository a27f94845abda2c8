import SeedLogic.Item
import SeedLogic.Settings.Basic
import SeedLogic.Settings.Names

/-!
# Predetermined items

Settings fix some items before the seed begins: a few are held from the start, and some counts
can never be reached.
-/

namespace SeedLogic

/-- What the settings decide about an item requirement. -/
inductive Predetermined where
  | satisfied
  | unsatisfiable
deriving DecidableEq, Repr

/-- The items that the settings fix. -/
structure PredeterminedItems where
  /-- Copies held at the start. -/
  starting : Dict String UInt32 := {}
  /-- Counts that can never be reached. -/
  impossible : Dict String UInt32 := {}
deriving DecidableEq, Inhabited

namespace PredeterminedItems

/-- The number of shards that an option stands for. A number that is no 32-bit count stands for
none. -/
def shardCount (shards : Int64) : UInt32 :=
  if 0 ≤ shards.toInt ∧ shards.toInt.toNat < UInt32.size then UInt32.ofNat shards.toInt.toNat
  else 0

/-- One more copy, unless the count is already the largest. -/
def oneMore (count : UInt32) : UInt32 :=
  if count.toNat + 1 < UInt32.size then count + 1 else count

/-- The items held at the start before the sword mode is considered: the fixed items, overridden
by the starting gear. -/
def startingGear (s : Settings) : Dict String UInt32 :=
  s.startingGear.entries.foldl (fun gear entry => gear.insert entry.1 entry.2) <|
    Dict.ofList [(ItemName.windWaker, 1), (ItemName.boatsSail, 1), (ItemName.windsRequiem, 1),
      (ItemName.triforceShard, shardCount (s.integer OptionName.numStartingTriforceShards))]

/-- The items that a settings snapshot fixes. -/
def derive (s : Settings) : PredeterminedItems :=
  let gear := startingGear s
  if s.equals OptionName.swordMode OptionChoice.startWithHerosSword then
    { starting := gear.insert ItemName.progressiveSword
        (oneMore ((gear.get? ItemName.progressiveSword).getD 0)) }
  else if s.equals OptionName.swordMode OptionChoice.swordless then
    { starting := gear
      impossible := Dict.ofList [(ItemName.progressiveSword, 1), (ItemName.hurricaneSpin, 1)] }
  else { starting := gear }

/-- The copies of an item held at the start. -/
def startingCount (p : PredeterminedItems) (item : String) : UInt32 :=
  (p.starting.get? item).getD 0

/-- What is decided about a requirement. Items held at the start come before impossible ones. -/
def classify (p : PredeterminedItems) (need : ItemRequirement) : Option Predetermined :=
  if (p.starting.get? need.item).any fun held => need.count ≤ held then some .satisfied
  else if (p.impossible.get? need.item).any fun limit => limit ≤ need.count then
    some .unsatisfiable
  else none

variable {p : PredeterminedItems} {need : ItemRequirement}

/-- A requirement is satisfied when enough copies are held at the start. -/
theorem classify_eq_satisfied_iff :
    p.classify need = some .satisfied ↔
      ∃ count, p.starting.get? need.item = some count ∧ need.count ≤ count := by
  have hany : (p.starting.get? need.item).any (fun held => need.count ≤ held) = true ↔
      ∃ count, p.starting.get? need.item = some count ∧ need.count ≤ count := by
    simp [Option.any_eq_true]
  rw [← hany, classify]
  split
  · next hstarting => simp [hstarting]
  · next hstarting => split <;> simp [hstarting]

/-- A requirement is unsatisfiable only when it asks for as many copies as can never be reached. -/
theorem exists_limit_of_classify (h : p.classify need = some .unsatisfiable) :
    ∃ limit, p.impossible.get? need.item = some limit ∧ limit ≤ need.count := by
  rw [classify] at h
  split at h
  · cases h
  · split at h
    · next hlimit => simpa [Option.any_eq_true] using hlimit
    · cases h

end PredeterminedItems

end SeedLogic
