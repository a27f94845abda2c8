import SeedLogic.Session.Requirements
import SeedLogic.SmallKeys

/-!
# Items, locations and small keys

How many copies of an item exist, which locations may hold progress items, and how many small keys
a location needs.
-/

namespace SeedLogic

/-- One copy less than a count, but not less than none. -/
def oneLess (count : UInt32) : UInt32 :=
  if count = 0 then 0 else count - 1

/-- Whether an item is held at the start of every seed. -/
def ItemName.isLockedStartingItem (item : String) : Bool :=
  item = windsRequiem || item = boatsSail || item = windWaker

namespace GameData

variable (data : GameData)

/-- Whether a name is that of a dungeon. -/
def isDungeon (name : String) : Bool :=
  (data.dungeon? name).isSome

/-- Whether a name is that of a dungeon with items of its own. -/
def isMainDungeon (name : String) : Bool :=
  data.isDungeon name && !data.nonMainDungeons.contains name

/-- The name of an item of a dungeon. -/
def dungeonItemName (dungeon item : String) : Except LogicError String := do
  let entry ← data.dungeonEntry dungeon
  pure (entry.shortName ++ " " ++ item)

/-- The name of the item that opens the locked doors of a dungeon. -/
def smallKeyName (dungeon : String) : Except LogicError String :=
  data.dungeonItemName dungeon "Small Key"

/-- The name of the item that opens the boss door of a dungeon. -/
def bigKeyName (dungeon : String) : Except LogicError String :=
  data.dungeonItemName dungeon "Big Key"

/-- The name of the map of a dungeon. -/
def dungeonMapName (dungeon : String) : Except LogicError String :=
  data.dungeonItemName dungeon "Dungeon Map"

/-- The name of the compass of a dungeon. -/
def compassName (dungeon : String) : Except LogicError String :=
  data.dungeonItemName dungeon "Compass"

/-- The locations that are banned along with a zone: its own and the additional ones. -/
def bannedLocations (zone : String) : List BannedLocation :=
  (data.locationsIn zone).keys.map (BannedLocation.mk zone) ++
    (data.additionalBannedLocations.get? zone).getD []

end GameData

namespace Session

variable (s : Session)

/-- The greatest number of copies of an item: one less than an impossible count, else the number
in the tables, else one. -/
def maxItemCount (item : String) : UInt32 :=
  match s.predetermined.impossible.get? item with
  | some limit => oneLess limit
  | none => ((s.data.items.get? item).or (s.data.keys.get? item)).getD 1

/-- The copies of an item held at the start. -/
def startingItemCount (item : String) : UInt32 :=
  s.predetermined.startingCount item

/-- Whether all flags of a location are active. -/
def isProgressLocation (general detailed : String) : Except LogicError Bool := do
  let entry ← s.data.locationEntry general detailed
  pure (entry.flags.all s.settings.flags.contains)

/-- Whether all flags of a location are certainly active. -/
def isCertainLocationType (general detailed : String) : Except LogicError Bool := do
  let entry ← s.data.locationEntry general detailed
  pure (entry.flags.all s.settings.certainFlags.contains)

/-- The detailed locations of a general location, or only those that may hold progress items. -/
def filterDetailedLocations (general : String) (onlyProgress : Bool) :
    Except LogicError (List String) :=
  (s.data.locationsIn general).keys.filterM fun detailed =>
    if onlyProgress then s.isProgressLocation general detailed else pure true

/-- The number of small keys of a dungeon. -/
def maxSmallKeys (dungeon : String) : Except LogicError UInt32 := do
  let key ← s.data.smallKeyName dungeon
  pure (s.maxItemCount key)

/-- Whether a location may hold a key of its dungeon. -/
def isPotentialKeyLocation (general detailed : String) : Except LogicError Bool := do
  if !s.data.isMainDungeon general then return false
  let entry ← s.data.locationEntry general detailed
  let progress ← s.isProgressLocation general detailed
  if s.settings.flags.contains FlagName.dungeon && !progress then return false
  if s.settings.isEnabled OptionName.randomizeMinibossEntrances &&
      entry.hasFlag FlagName.randomizableMinibossRoom then return false
  pure (!entry.hasFlag FlagName.boss)

/-- The least number of small keys with which a location is within reach when all other items are
held. -/
def smallKeysRequired (general detailed : String) : Query UInt32 :=
  audited "small_keys_required_for_location" <| remember (.smallKeys general detailed) do
    let s ← get
    let maximum ← s.maxSmallKeys general
    let key ← s.data.smallKeyName general
    let requirements ← locationTree general detailed false
    match requirements.minimumKeys key maximum with
    | some count => pure count
    | none => throw (.smallKeysUnsatisfiable general detailed)

/-- Whether a location is within reach with a number of small keys, when `held` decides all other
items. -/
def isAvailableWithSmallKeys (general detailed : String) (count : UInt32)
    (held : String → Bool) : Query Bool := do
  let key ← (← get).data.smallKeyName general
  let requirements ← requirementsForLocation general detailed false
  pure (requirements.availableWithKeys key count held)

end Session

end SeedLogic
