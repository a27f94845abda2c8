import SeedLogic.LogicError
import SeedLogic.Tables.Basic

/-!
# Integrity of the tables

Names that must be unique are unique, references between the tables lead somewhere, and charts
pair off with islands. The first violation is reported, table by table.
-/

namespace SeedLogic.GameData

/-- Refuses a repeated entrance and an entrance without its macro. -/
def checkEntrances (data : GameData) : List String → List EntranceEntry → Except LogicError Unit
  | _, [] => pure ()
  | seen, entry :: rest => do
    if seen.contains entry.internalName then
      throw (.duplicateEntry ("entrance " ++ entry.internalName))
    if (data.macroText? entry.macroName).isNone then throw (.unknownMacro entry.macroName)
    checkEntrances data (entry.internalName :: seen) rest

/-- Refuses a repeated dungeon. -/
def checkDungeons : List String → List DungeonEntry → Except LogicError Unit
  | _, [] => pure ()
  | seen, entry :: rest => do
    if seen.contains entry.name then throw (.duplicateEntry ("dungeon " ++ entry.name))
    checkDungeons (entry.name :: seen) rest

/-- Refuses an exit, or an entrance nested behind one, that the entrance table does not list. -/
def checkNesting (data : GameData) : List (String × List String) → Except LogicError Unit
  | [] => pure ()
  | (exit, nested) :: rest => do
    if (data.entrance? exit).isNone then throw (.unknownEntrance exit)
    match nested.find? fun name => (data.entrance? name).isNone with
    | some missing => throw (.unknownEntrance missing)
    | none => checkNesting data rest

/-- Refuses a boss without a dungeon and an atom that stands for two bosses. -/
def checkBosses (data : GameData) : List String → List RequiredBoss → Except LogicError Unit
  | _, [] => pure ()
  | seen, boss :: rest => do
    if (data.dungeon? boss.dungeon).isNone then throw (.unknownDungeon boss.dungeon)
    if seen.contains boss.requirement then
      throw (.duplicateEntry ("required boss " ++ boss.requirement))
    checkBosses data (boss.requirement :: seen) rest

/-- Checks the tables against each other and reports the first violation. -/
def validate (data : GameData) : Except LogicError Unit := do
  checkEntrances data [] data.entrances
  checkDungeons [] data.dungeons
  checkNesting data data.nestedEntrances.entries
  checkBosses data [] data.requiredBosses
  match (data.nonMainDungeons.keys ++ data.bossLocationOverrides.keys).find? fun name =>
    (data.dungeon? name).isNone with
  | some dungeon => throw (.unknownDungeon dungeon)
  | none => pure ()
  if data.charts.length ≠ data.islands.length then
    throw (.chartTableMismatch data.charts.length data.islands.length)

end SeedLogic.GameData
