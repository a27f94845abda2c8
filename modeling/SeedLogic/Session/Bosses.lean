import SeedLogic.Session.Basic

/-!
# Bosses

A boss may be marked as not required, which forgets every answer that depends on bosses.
-/

namespace SeedLogic.Session

/-- Marks the boss of a dungeon as required or not. -/
def setBoss (dungeon : String) (required : Bool) : Query Unit := do
  discard ((← get).data.bossRequirement dungeon)
  modify fun s =>
    { s with notRequired :=
        if required then s.notRequired.erase dungeon else s.notRequired.add dungeon }
  record (.bossRequirementChanged dungeon required)
  discard (invalidate .bossDependent)

variable (s : Session)

/-- Whether the boss of a dungeon is not marked as not required. -/
def isBossRequired (dungeon : String) : Bool :=
  !s.notRequired.contains dungeon

/-- Whether the boss of a dungeon can be marked as not required. -/
def isRequiredBossDungeon (dungeon : String) : Bool :=
  (s.data.bossOfDungeon? dungeon).isSome

/-- A 64-bit number nearest to an integer. -/
def clamp64 (n : Int) : Int :=
  max Int64.minValue.toInt (min n Int64.maxValue.toInt)

/-- Whether fewer bosses are marked as not required than the settings allow. -/
def anyNonRequiredBossesRemaining : Bool :=
  (s.notRequired.size : Int) <
    clamp64 (s.data.requiredBosses.length -
      (s.settings.integer OptionName.numRequiredBosses).toInt)

end SeedLogic.Session
