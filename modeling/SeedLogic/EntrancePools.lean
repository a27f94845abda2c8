import SeedLogic.LogicError
import SeedLogic.Settings.Basic
import SeedLogic.Tables.Basic

/-!
# Entrance pools

The options select the categories of entrances that are shuffled. Shuffled entrances form a
dungeon and an island pool, which the mixing option merges. All lists keep the order of the
entrance table within each pool.
-/

namespace SeedLogic

/-- The entrance table seen under a settings snapshot. -/
structure EntrancePools where
  data : GameData
  settings : Settings

namespace EntrancePools

variable (pools : EntrancePools)

/-- The shuffled entrances of a pool. -/
def randomized (pool : EntrancePool) : List EntranceEntry :=
  pools.data.entrances.filter fun entry =>
    entry.category.pool = pool && pools.settings.isEnabled entry.category.option

/-- The names of the shuffled entrances of a pool. -/
def randomizedNames (pool : EntrancePool) : List String :=
  (pools.randomized pool).map (·.internalName)

/-- The names of all shuffled entrances, the dungeon pool first. -/
def allNames : List String :=
  pools.randomizedNames .dungeon ++ pools.randomizedNames .island

/-- Whether some category of entrances is shuffled. -/
def isRandomized : Bool :=
  EntranceCategory.values.any fun category => pools.settings.isEnabled category.option

/-- The entrances or exits with which one may be paired before anything is excluded. -/
def possible (name : String) : Except LogicError (List String) :=
  match pools.data.entrance? name with
  | none => throw (.unknownEntrance name)
  | some entry =>
    if pools.settings.equals OptionName.mixEntrances OptionChoice.mixDungeonsAndCavesAndFountains
    then pure pools.allNames
    else pure (pools.randomizedNames entry.category.pool)

/-- The shuffled entrances that lie behind an exit, in the order of the nesting table. -/
def nestedBehind (exit : String) : List String :=
  ((pools.data.nestedEntrances.get? exit).getD []).filter pools.allNames.contains

/-- The entrances that may lead to an exit. -/
def entrancesForExit (exit : String) : Except LogicError (List String) := do
  let names ← pools.possible exit
  pure (names.filter fun name => !(pools.nestedBehind exit).contains name)

/-- The exits to which an entrance may lead: never the exit behind which it lies. -/
def exitsForEntrance (entrance : String) : Except LogicError (List String) := do
  let names ← pools.possible entrance
  match pools.data.parentExit? entrance with
  | some parent => pure (names.filter (· ≠ parent))
  | none => pure names

/-- The shuffled entrances that lie in a zone, from either pool. -/
def entrancesForIsland (zone : String) : List String :=
  ((pools.randomized .dungeon ++ pools.randomized .island).filter
    (·.entranceZone = zone)).map (·.internalName)

/-- The shuffled exits of the island pool that lead into a zone. -/
def exitsForIsland (zone : String) : List String :=
  ((pools.randomized .island).filter (·.exitZone = zone)).map (·.internalName)

/-- The shuffled entrances of the dungeon pool that lie in a zone. -/
def entrancesForDungeon (zone : String) : List String :=
  ((pools.randomized .dungeon).filter (·.entranceZone = zone)).map (·.internalName)

/-- The shuffled exits of the dungeon pool that lead into a zone. -/
def exitsForDungeon (zone : String) : List String :=
  ((pools.randomized .dungeon).filter (·.exitZone = zone)).map (·.internalName)

end EntrancePools

end SeedLogic
