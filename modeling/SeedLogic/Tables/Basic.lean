import SeedLogic.Dict
import SeedLogic.Settings.Names
import SeedLogic.Text.Cut

/-!
# Tables of a game

The static tables: macros, locations, entrances, dungeons with their bosses, items, and charts
with their islands. Looking something up takes the first matching entry of a list.
-/

namespace SeedLogic

/-- One item location within a general location. -/
structure LocationEntry where
  /-- The requirement text. -/
  need : String
  /-- The flags of the location, separated by a comma and a space. -/
  types : String := ""
deriving DecidableEq, Repr

namespace LocationEntry

/-- The flags of the location. -/
def flags (entry : LocationEntry) : List String :=
  ((Text.commaSpacePieces entry.types.toList).filter (!·.isEmpty)).map String.ofList

/-- Whether the location carries a flag. -/
def hasFlag (entry : LocationEntry) (flag : String) : Bool :=
  entry.flags.contains flag

end LocationEntry

/-- The kinds of randomizable entrances. -/
inductive EntranceCategory where
  | dungeon
  | boss
  | miniboss
  | cave
  | innerCave
  | fairyFountain
deriving DecidableEq, Repr

/-- The two pools within which entrances are shuffled. -/
inductive EntrancePool where
  | dungeon
  | island
deriving DecidableEq, Repr

namespace EntranceCategory

/-- Every category, those of the dungeon pool first. -/
def values : List EntranceCategory :=
  [.dungeon, .boss, .miniboss, .cave, .innerCave, .fairyFountain]

/-- The pool of a category. -/
def pool : EntranceCategory → EntrancePool
  | .dungeon | .boss | .miniboss => .dungeon
  | .cave | .innerCave | .fairyFountain => .island

/-- The option that shuffles the entrances of a category. -/
def option : EntranceCategory → String
  | .dungeon => OptionName.randomizeDungeonEntrances
  | .boss => OptionName.randomizeBossEntrances
  | .miniboss => OptionName.randomizeMinibossEntrances
  | .cave => OptionName.randomizeSecretCaveEntrances
  | .innerCave => OptionName.randomizeSecretCaveInnerEntrances
  | .fairyFountain => OptionName.randomizeFairyFountainEntrances

end EntranceCategory

/-- A randomizable entrance together with the exit to which it leads when nothing is shuffled. -/
structure EntranceEntry where
  /-- The unique name of both the entrance and its exit. -/
  internalName : String
  /-- The zone in which the entrance lies. -/
  entranceZone : String
  /-- The zone into which the exit leads. -/
  exitZone : String
  category : EntranceCategory
  /-- The short display name of the entrance. -/
  entranceName : String
  /-- The short display name of the exit. -/
  exitName : String
  /-- The name of the area behind the exit. -/
  entryName : String
  /-- The name of the entrance within the name of its macro. -/
  macroSuffix : String
deriving DecidableEq, Repr

/-- The name of the macro that holds the requirements of an entrance. -/
def EntranceEntry.macroName (entry : EntranceEntry) : String :=
  "Can Access " ++ entry.macroSuffix

/-- A dungeon and the abbreviation used in the names of its items. -/
structure DungeonEntry where
  name : String
  shortName : String
deriving DecidableEq, Repr

/-- A dungeon whose boss may be marked as not required. -/
structure RequiredBoss where
  dungeon : String
  /-- The atom that stands for defeating the boss. -/
  requirement : String
deriving DecidableEq, Repr

/-- A location that is banned along with a zone. -/
structure BannedLocation where
  general : String
  detailed : String
deriving DecidableEq, Repr

/-- The static tables of a game. -/
structure GameData where
  /-- The requirement text of each macro. -/
  macros : Dict String String := {}
  /-- The locations by general and detailed name. -/
  locations : Dict String (Dict String LocationEntry) := {}
  entrances : List EntranceEntry := []
  /-- The entrances that can only be reached through an exit, by the name of the exit. -/
  nestedEntrances : Dict String (List String) := {}
  requiredBosses : List RequiredBoss := []
  /-- The dungeons in canonical order. -/
  dungeons : List DungeonEntry := []
  /-- The dungeons without small keys and dungeon items of their own. -/
  nonMainDungeons : NameSet := {}
  /-- The boss locations of dungeons whose boss location does not carry the boss flag. -/
  bossLocationOverrides : Dict String String := {}
  /-- The greatest number of copies of each item. -/
  items : Dict String UInt32 := {}
  /-- The greatest number of copies of each dungeon key. -/
  keys : Dict String UInt32 := {}
  /-- The charts, in the order of the islands to which they lead. -/
  charts : List String := []
  /-- The islands, in the order of the charts that lead to them. -/
  islands : List String := []
  /-- Display names by item and count. -/
  prettyItemNames : Dict String (Dict UInt32 String) := {}
  /-- Locations outside a zone that are banned along with it. -/
  additionalBannedLocations : Dict String (List BannedLocation) := {}
deriving DecidableEq, Inhabited

namespace GameData

variable (data : GameData)

/-- The requirement text of a macro. -/
def macroText? (name : String) : Option String :=
  data.macros.get? name

/-- The detailed locations of a general location. -/
def locationsIn (general : String) : Dict String LocationEntry :=
  (data.locations.get? general).getD {}

/-- The location with a general and a detailed name. -/
def location? (general detailed : String) : Option LocationEntry :=
  (data.locationsIn general).get? detailed

/-- The entrance with an internal name. -/
def entrance? (name : String) : Option EntranceEntry :=
  data.entrances.find? (·.internalName = name)

/-- The dungeon with a name. -/
def dungeon? (name : String) : Option DungeonEntry :=
  data.dungeons.find? (·.name = name)

/-- The boss of a dungeon. -/
def bossOfDungeon? (dungeon : String) : Option RequiredBoss :=
  data.requiredBosses.find? (·.dungeon = dungeon)

/-- The boss that an atom stands for. -/
def bossOfRequirement? (requirement : String) : Option RequiredBoss :=
  data.requiredBosses.find? (·.requirement = requirement)

/-- The island to which a chart leads when charts are not shuffled. -/
def islandOfChart? (chart : String) : Option String :=
  (data.charts.findIdx? (· = chart)).bind fun i => data.islands[i]?

/-- The chart that leads to an island when charts are not shuffled. -/
def chartOfIsland? (island : String) : Option String :=
  (data.islands.findIdx? (· = island)).bind fun i => data.charts[i]?

/-- The display name for a number of copies of an item. -/
def prettyItemName? (item : String) (count : UInt32) : Option String :=
  (data.prettyItemNames.get? item).bind fun names => names.get? count

/-- The exit behind which an entrance lies. -/
def parentExit? (entrance : String) : Option String :=
  (data.nestedEntrances.entries.find? (·.2.contains entrance)).map Prod.fst

end GameData

end SeedLogic
