import SeedLogic.EntrancePools
import SeedLogic.Session.Basic

/-!
# Entrances and exits

The names of entrances and exits, and the remembered answers about entrance pools.
-/

namespace SeedLogic

namespace GameData

variable (data : GameData)

/-- The name of the area behind an exit. -/
def entryName (exit : String) : Except LogicError String := do
  pure (← data.entranceEntry exit).entryName

/-- The short display name of an entrance. -/
def shortEntranceName (entrance : String) : Except LogicError String := do
  pure (← data.entranceEntry entrance).entranceName

/-- The exit name that stands for no exit. -/
def nothingExit : String := "Nothing"

/-- The short display name of an exit. The name for no exit is its own. -/
def shortExitName (exit : String) : Except LogicError String := do
  if exit = nothingExit then return exit
  pure (← data.entranceEntry exit).exitName

end GameData

namespace Session

/-- The entrance table under the current settings. -/
def pools (s : Session) : EntrancePools :=
  { data := s.data, settings := s.settings }

/-- The names of all shuffled entrances. -/
def allRandomEntrances : Query (List String) :=
  remember .allRandomEntrances do
    pure (← get).pools.allNames

/-- The entrances that may lead to an exit. -/
def randomEntrancesForExit (exit : String) : Query (List String) :=
  audited "random_entrances_for_exit" <| remember (.entrancesForExit exit) do
    (← get).pools.entrancesForExit exit

/-- The exits to which an entrance may lead. -/
def randomExitsForEntrance (entrance : String) : Query (List String) :=
  audited "random_exits_for_entrance" <| remember (.exitsForEntrance entrance) do
    (← get).pools.exitsForEntrance entrance

/-- The shuffled entrances that lie behind an exit. -/
def nestedEntrancesForExit (exit : String) : Query (List String) :=
  remember (.nestedEntrances exit) do
    pure ((← get).pools.nestedBehind exit)

end Session

end SeedLogic
