import SeedLogic.Session.Bosses
import SeedLogic.Session.Charts
import SeedLogic.Session.DisplayNames
import SeedLogic.Session.Entrances

/-!
# Operations on a session

Every way of using a session is a value, so that runs of a session are lists of operations.
Performing an operation gives a reply or an error, and the session afterwards.
-/

namespace SeedLogic

/-- A use of a session. -/
inductive Operation where
  | updateSettings (settings : Settings)
  | reset
  | invalidate (scope : InvalidationScope)
  | settings
  | gameData
  | predeterminedItems
  | cachedEntries
  | requirementsForLocation (general detailed : String) (flattened : Bool)
  | rawRequirementsForLocation (general detailed : String) (flattened : Bool)
  | requirementsForEntrance (entrance : String)
  | buildRequirement (requirement : String) (flattened : Bool)
  | maxItemCount (item : String)
  | startingItemCount (item : String)
  | isProgressLocation (general detailed : String)
  | isCertainLocationType (general detailed : String)
  | filterDetailedLocations (general : String) (onlyProgress : Bool)
  | isDungeon (name : String)
  | isMainDungeon (name : String)
  | bossLocation (dungeon : String)
  | smallKeyName (dungeon : String)
  | bigKeyName (dungeon : String)
  | dungeonMapName (dungeon : String)
  | compassName (dungeon : String)
  | maxSmallKeys (dungeon : String)
  | isPotentialKeyLocation (general detailed : String)
  | smallKeysRequired (general detailed : String)
  | isAvailableWithSmallKeys (general detailed : String) (count : UInt32) (held : String → Bool)
  | setBossRequired (dungeon : String)
  | setBossNotRequired (dungeon : String)
  | isBossRequired (dungeon : String)
  | nonRequiredBossDungeons
  | bossRequirement (dungeon : String)
  | bossLocationOfRequirement (requirement : String)
  | isRequiredBossDungeon (dungeon : String)
  | anyNonRequiredBossesRemaining
  | entryName (exit : String)
  | shortEntranceName (entrance : String)
  | shortExitName (exit : String)
  | isRandomEntrances
  | allRandomEntrances
  | randomEntrancesForExit (exit : String)
  | randomExitsForEntrance (entrance : String)
  | nestedEntrancesForExit (exit : String)
  | entrancesForIsland (zone : String)
  | exitsForIsland (zone : String)
  | entrancesForDungeon (zone : String)
  | exitsForDungeon (zone : String)
  | islandForChart (chart : String)
  | vanillaChartForIsland (island : String)
  | isRandomizedChart (item : String)
  | anyProgressItemCharts
  | islandHasProgressItemChart (island : String)
  | allCharts (includeNonProgress : Bool)
  | prettyNameForItem (item : String) (count : Option UInt32)
  | prettyNameForItemRequirement (requirement : String)
  | bannedLocations (zone : String)

/-- What an operation gives back. -/
inductive Reply where
  | done
  | flag (value : Bool)
  | count (value : Nat)
  | text (value : String)
  | optionalText (value : Option String)
  | texts (values : List String)
  | tree (value : Requirement)
  | bossLocation (value : Option (String × String))
  | chart (value : VanillaChart)
  | bannedLocations (values : List BannedLocation)
  | settings (value : Settings)
  | gameData (value : GameData)
  | predeterminedItems (value : PredeterminedItems)
deriving DecidableEq

namespace Operation

open Session

/-- The query that answers an operation. -/
def query : Operation → Query Reply
  | .updateSettings replacement => do
    Session.updateSettings replacement
    pure .done
  | .reset => do
    Session.reset
    pure .done
  | .invalidate scope => do
    let dropped ← Session.invalidate scope
    pure (.count dropped)
  | .settings => do pure (.settings (← get).settings)
  | .gameData => do pure (.gameData (← get).data)
  | .predeterminedItems => do pure (.predeterminedItems (← get).predetermined)
  | .cachedEntries => do pure (.count (← get).cache.size)
  | .requirementsForLocation general detailed flattened =>
    .tree <$> Session.requirementsForLocation general detailed flattened
  | .rawRequirementsForLocation general detailed flattened =>
    .tree <$> Session.rawRequirementsForLocation general detailed flattened
  | .requirementsForEntrance entrance => .tree <$> Session.requirementsForEntrance entrance
  | .buildRequirement requirement flattened =>
    .tree <$> Session.buildRequirement requirement flattened
  | .maxItemCount item => do pure (.count ((← get).maxItemCount item).toNat)
  | .startingItemCount item => do pure (.count ((← get).startingItemCount item).toNat)
  | .isProgressLocation general detailed => do
    .flag <$> (← get).isProgressLocation general detailed
  | .isCertainLocationType general detailed => do
    .flag <$> (← get).isCertainLocationType general detailed
  | .filterDetailedLocations general onlyProgress => do
    .texts <$> (← get).filterDetailedLocations general onlyProgress
  | .isDungeon name => do pure (.flag ((← get).data.isDungeon name))
  | .isMainDungeon name => do pure (.flag ((← get).data.isMainDungeon name))
  | .bossLocation dungeon => do .text <$> (← get).data.bossLocation dungeon
  | .smallKeyName dungeon => do .text <$> (← get).data.smallKeyName dungeon
  | .bigKeyName dungeon => do .text <$> (← get).data.bigKeyName dungeon
  | .dungeonMapName dungeon => do .text <$> (← get).data.dungeonMapName dungeon
  | .compassName dungeon => do .text <$> (← get).data.compassName dungeon
  | .maxSmallKeys dungeon => do
    let count ← (← get).maxSmallKeys dungeon
    pure (.count count.toNat)
  | .isPotentialKeyLocation general detailed => do
    .flag <$> (← get).isPotentialKeyLocation general detailed
  | .smallKeysRequired general detailed => do
    let count ← Session.smallKeysRequired general detailed
    pure (.count count.toNat)
  | .isAvailableWithSmallKeys general detailed count held =>
    .flag <$> Session.isAvailableWithSmallKeys general detailed count held
  | .setBossRequired dungeon => do
    setBoss dungeon true
    pure .done
  | .setBossNotRequired dungeon => do
    setBoss dungeon false
    pure .done
  | .isBossRequired dungeon => do pure (.flag ((← get).isBossRequired dungeon))
  | .nonRequiredBossDungeons => do pure (.texts (← get).notRequired.keys)
  | .bossRequirement dungeon => do .text <$> (← get).data.bossRequirement dungeon
  | .bossLocationOfRequirement requirement => do
    .bossLocation <$> (← get).data.bossLocationOfRequirement requirement
  | .isRequiredBossDungeon dungeon => do pure (.flag ((← get).isRequiredBossDungeon dungeon))
  | .anyNonRequiredBossesRemaining => do
    pure (.flag (← get).anyNonRequiredBossesRemaining)
  | .entryName exit => do .text <$> (← get).data.entryName exit
  | .shortEntranceName entrance => do .text <$> (← get).data.shortEntranceName entrance
  | .shortExitName exit => do .text <$> (← get).data.shortExitName exit
  | .isRandomEntrances => do pure (.flag (← get).pools.isRandomized)
  | .allRandomEntrances => .texts <$> Session.allRandomEntrances
  | .randomEntrancesForExit exit => .texts <$> Session.randomEntrancesForExit exit
  | .randomExitsForEntrance entrance => .texts <$> Session.randomExitsForEntrance entrance
  | .nestedEntrancesForExit exit => .texts <$> Session.nestedEntrancesForExit exit
  | .entrancesForIsland zone => do pure (.texts ((← get).pools.entrancesForIsland zone))
  | .exitsForIsland zone => do pure (.texts ((← get).pools.exitsForIsland zone))
  | .entrancesForDungeon zone => do pure (.texts ((← get).pools.entrancesForDungeon zone))
  | .exitsForDungeon zone => do pure (.texts ((← get).pools.exitsForDungeon zone))
  | .islandForChart chart => .optionalText <$> Session.islandForChart chart
  | .vanillaChartForIsland island => .chart <$> Session.vanillaChartForIsland island
  | .isRandomizedChart item => do pure (.flag ((← get).isRandomizedChart item))
  | .anyProgressItemCharts => .flag <$> Session.anyProgressItemCharts
  | .islandHasProgressItemChart island => .flag <$> Session.islandHasProgressItemChart island
  | .allCharts includeNonProgress => .texts <$> Session.allCharts includeNonProgress
  | .prettyNameForItem item count => .text <$> Session.prettyNameForItem item count
  | .prettyNameForItemRequirement requirement =>
    .text <$> Session.prettyNameForItemRequirement requirement
  | .bannedLocations zone => do pure (.bannedLocations ((← get).data.bannedLocations zone))

/-- Performs an operation. -/
def perform (operation : Operation) (s : Session) : Except LogicError Reply × Session :=
  Id.run (operation.query.run.run s)

end Operation

/-- The session after a list of operations. -/
def Session.after (s : Session) (operations : List Operation) : Session :=
  operations.foldl (fun s operation => (operation.perform s).2) s

end SeedLogic
