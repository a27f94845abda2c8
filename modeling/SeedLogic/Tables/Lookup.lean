import SeedLogic.LogicError
import SeedLogic.Tables.Basic

/-!
# Looking up entries that must exist

Each function finds an entry of the tables or reports which name is unknown.
-/

namespace SeedLogic

/-- Splits `General - Detailed` at the first separator. Both halves must not be empty. -/
def splitLocationName (name : String) : Except LogicError (String × String) :=
  match Text.cutFirst? [' ', '-', ' '] name.toList with
  | some (g :: gs, d :: ds) => pure (.ofList (g :: gs), .ofList (d :: ds))
  | _ => throw (.malformedLocationName name)

namespace GameData

variable (data : GameData)

/-- The location with a general and a detailed name. -/
def locationEntry (general detailed : String) : Except LogicError LocationEntry :=
  match data.location? general detailed with
  | some entry => pure entry
  | none => throw (.unknownLocation general detailed)

/-- The entrance with a name. -/
def entranceEntry (name : String) : Except LogicError EntranceEntry :=
  match data.entrance? name with
  | some entry => pure entry
  | none => throw (.unknownEntrance name)

/-- The dungeon with a name. -/
def dungeonEntry (name : String) : Except LogicError DungeonEntry :=
  match data.dungeon? name with
  | some entry => pure entry
  | none => throw (.unknownDungeon name)

/-- The name of the macro of an entrance, which must be in the tables. -/
def macroNameOfEntrance (entrance : String) : Except LogicError String := do
  let entry ← data.entranceEntry entrance
  if (data.macroText? entry.macroName).isNone then throw (.unknownMacro entry.macroName)
  pure entry.macroName

/-- The detailed name of the boss location of a dungeon: an override, or else the first location
of the dungeon that carries the boss flag. -/
def bossLocation (dungeon : String) : Except LogicError String :=
  match data.bossLocationOverrides.get? dungeon with
  | some detailed => pure detailed
  | none =>
    match (data.locationsIn dungeon).entries.find? fun entry => entry.2.hasFlag FlagName.boss with
    | some (detailed, _) => pure detailed
    | none => throw (.unknownBossLocation dungeon)

/-- The atom that stands for the boss of a dungeon. -/
def bossRequirement (dungeon : String) : Except LogicError String :=
  match data.bossOfDungeon? dungeon with
  | some boss => pure boss.requirement
  | none => throw (.unknownRequiredBoss dungeon)

/-- The dungeon and the boss location behind an atom that stands for a boss. -/
def bossLocationOfRequirement (requirement : String) :
    Except LogicError (Option (String × String)) :=
  match data.bossOfRequirement? requirement with
  | some boss => do
    let detailed ← data.bossLocation boss.dungeon
    pure (some (boss.dungeon, detailed))
  | none => pure none

end GameData

end SeedLogic
