import SeedLogic.Data.Decode
import SeedLogic.Tables.Basic

/-!
# The file format of the tables

Every table may be missing from the file and is then empty. Within the records of a table every
field must be present, except for the flags of a location.
-/

namespace SeedLogic

namespace EntranceCategory

/-- The name of a category in a file. -/
def name : EntranceCategory → String
  | .dungeon => "dungeon"
  | .boss => "boss"
  | .miniboss => "miniboss"
  | .cave => "cave"
  | .innerCave => "inner_cave"
  | .fairyFountain => "fairy_fountain"

/-- The category with a name. -/
def ofName? (text : String) : Option EntranceCategory :=
  values.find? (·.name = text)

/-- The category of a datum: its name, or a table that maps the name to null. -/
def ofDatum? : Datum → Option EntranceCategory
  | .text text => ofName? text
  | .table [(text, .null)] _ => ofName? text
  | _ => none

end EntranceCategory

/-- The name of a pool. -/
def EntrancePool.name : EntrancePool → String
  | .dungeon => "dungeon"
  | .island => "island"

namespace LocationEntry

/-- The datum of a location. -/
def toDatum (entry : LocationEntry) : Datum :=
  .table [("need", .text entry.need), ("types", .text entry.types)]

/-- The location of a datum. -/
def ofDatum? (d : Datum) : Option LocationEntry := do
  let record ← d.record? ["need", "types"]
  let need ← Datum.field? record "need" Datum.text?
  let types ← Datum.fieldD? record "types" "" Datum.text?
  some { need, types }

end LocationEntry

namespace EntranceEntry

/-- The field names of an entrance record. -/
def fieldNames : List String :=
  ["internal_name", "entrance_zone_name", "exit_zone_name", "category", "entrance_name",
    "exit_name", "entry_name", "entrance_macro_name"]

/-- The datum of an entrance. -/
def toDatum (entry : EntranceEntry) : Datum :=
  .table
    [("internal_name", .text entry.internalName), ("entrance_zone_name", .text entry.entranceZone),
      ("exit_zone_name", .text entry.exitZone), ("category", .text entry.category.name),
      ("entrance_name", .text entry.entranceName), ("exit_name", .text entry.exitName),
      ("entry_name", .text entry.entryName), ("entrance_macro_name", .text entry.macroSuffix)]

/-- The entrance of a datum. -/
def ofDatum? (d : Datum) : Option EntranceEntry := do
  let record ← d.record? fieldNames
  let internalName ← Datum.field? record "internal_name" Datum.text?
  let entranceZone ← Datum.field? record "entrance_zone_name" Datum.text?
  let exitZone ← Datum.field? record "exit_zone_name" Datum.text?
  let category ← Datum.field? record "category" EntranceCategory.ofDatum?
  let entranceName ← Datum.field? record "entrance_name" Datum.text?
  let exitName ← Datum.field? record "exit_name" Datum.text?
  let entryName ← Datum.field? record "entry_name" Datum.text?
  let macroSuffix ← Datum.field? record "entrance_macro_name" Datum.text?
  some { internalName, entranceZone, exitZone, category, entranceName, exitName, entryName,
         macroSuffix }

end EntranceEntry

namespace DungeonEntry

/-- The datum of a dungeon. -/
def toDatum (entry : DungeonEntry) : Datum :=
  .table [("name", .text entry.name), ("short_name", .text entry.shortName)]

/-- The dungeon of a datum. -/
def ofDatum? (d : Datum) : Option DungeonEntry := do
  let record ← d.record? ["name", "short_name"]
  let name ← Datum.field? record "name" Datum.text?
  let shortName ← Datum.field? record "short_name" Datum.text?
  some { name, shortName }

end DungeonEntry

namespace RequiredBoss

/-- The datum of a boss. -/
def toDatum (boss : RequiredBoss) : Datum :=
  .table [("dungeon_name", .text boss.dungeon), ("requirement", .text boss.requirement)]

/-- The boss of a datum. -/
def ofDatum? (d : Datum) : Option RequiredBoss := do
  let record ← d.record? ["dungeon_name", "requirement"]
  let dungeon ← Datum.field? record "dungeon_name" Datum.text?
  let requirement ← Datum.field? record "requirement" Datum.text?
  some { dungeon, requirement }

end RequiredBoss

namespace BannedLocation

/-- The datum of a banned location. -/
def toDatum (location : BannedLocation) : Datum :=
  .table
    [("general_location", .text location.general), ("detailed_location", .text location.detailed)]

/-- The banned location of a datum. -/
def ofDatum? (d : Datum) : Option BannedLocation := do
  let record ← d.record? ["general_location", "detailed_location"]
  let general ← Datum.field? record "general_location" Datum.text?
  let detailed ← Datum.field? record "detailed_location" Datum.text?
  some { general, detailed }

end BannedLocation

namespace GameData

/-- The names of the tables in a file. -/
def fieldNames : List String :=
  ["macros", "locations", "entrances", "nested_entrances", "required_bosses", "dungeons",
    "non_main_dungeons", "boss_location_overrides", "items", "keys", "charts", "islands",
    "pretty_item_names", "additional_banned_locations"]

/-- The datum of the tables. -/
def toDatum (data : GameData) : Datum :=
  .table
    [("macros", .ofDict .text data.macros),
      ("locations", .ofDict (.ofDict LocationEntry.toDatum) data.locations),
      ("entrances", .list (data.entrances.map EntranceEntry.toDatum)),
      ("nested_entrances", .ofDict .ofTexts data.nestedEntrances),
      ("required_bosses", .list (data.requiredBosses.map RequiredBoss.toDatum)),
      ("dungeons", .list (data.dungeons.map DungeonEntry.toDatum)),
      ("non_main_dungeons", .ofNames data.nonMainDungeons),
      ("boss_location_overrides", .ofDict .text data.bossLocationOverrides),
      ("items", .ofDict .ofCount data.items),
      ("keys", .ofDict .ofCount data.keys),
      ("charts", .ofTexts data.charts),
      ("islands", .ofTexts data.islands),
      ("pretty_item_names", .ofDict (.ofCountDict .text) data.prettyItemNames),
      ("additional_banned_locations",
        .ofDict (fun locations => .list (locations.map BannedLocation.toDatum))
          data.additionalBannedLocations)]

/-- The tables of a datum. -/
def ofDatum? (d : Datum) : Option GameData := do
  let record ← d.record? fieldNames
  let macros ← Datum.fieldD? record "macros" {} (Datum.dict? Datum.text?)
  let locations ← Datum.fieldD? record "locations" {}
    (Datum.dict? (Datum.dict? LocationEntry.ofDatum?))
  let entrances ← Datum.fieldD? record "entrances" [] (Datum.list? EntranceEntry.ofDatum?)
  let nestedEntrances ← Datum.fieldD? record "nested_entrances" {}
    (Datum.dict? (Datum.list? Datum.text?))
  let requiredBosses ← Datum.fieldD? record "required_bosses" []
    (Datum.list? RequiredBoss.ofDatum?)
  let dungeons ← Datum.fieldD? record "dungeons" [] (Datum.list? DungeonEntry.ofDatum?)
  let nonMainDungeons ← Datum.fieldD? record "non_main_dungeons" {} Datum.names?
  let bossLocationOverrides ← Datum.fieldD? record "boss_location_overrides" {}
    (Datum.dict? Datum.text?)
  let items ← Datum.fieldD? record "items" {} (Datum.dict? Datum.count?)
  let keys ← Datum.fieldD? record "keys" {} (Datum.dict? Datum.count?)
  let charts ← Datum.fieldD? record "charts" [] (Datum.list? Datum.text?)
  let islands ← Datum.fieldD? record "islands" [] (Datum.list? Datum.text?)
  let prettyItemNames ← Datum.fieldD? record "pretty_item_names" {}
    (Datum.dict? (Datum.countDict? Datum.text?))
  let additionalBannedLocations ← Datum.fieldD? record "additional_banned_locations" {}
    (Datum.dict? (Datum.list? BannedLocation.ofDatum?))
  some { macros, locations, entrances, nestedEntrances, requiredBosses, dungeons, nonMainDungeons,
         bossLocationOverrides, items, keys, charts, islands, prettyItemNames,
         additionalBannedLocations }

end GameData

end SeedLogic
