/-!
# Well-known names

Names of options, option values, location flags and items to which the logic attaches a meaning.
-/

namespace SeedLogic

namespace OptionName

/-- Shuffles the entrances of dungeons. -/
def randomizeDungeonEntrances : String := "randomize_dungeon_entrances"

/-- Shuffles the entrances of boss rooms. -/
def randomizeBossEntrances : String := "randomize_boss_entrances"

/-- Shuffles the entrances of miniboss rooms. -/
def randomizeMinibossEntrances : String := "randomize_miniboss_entrances"

/-- Shuffles the entrances of secret caves. -/
def randomizeSecretCaveEntrances : String := "randomize_secret_cave_entrances"

/-- Shuffles the entrances inside secret caves. -/
def randomizeSecretCaveInnerEntrances : String := "randomize_secret_cave_inner_entrances"

/-- Shuffles the entrances of fairy fountains. -/
def randomizeFairyFountainEntrances : String := "randomize_fairy_fountain_entrances"

/-- Chooses whether the two entrance pools are merged. -/
def mixEntrances : String := "mix_entrances"

/-- Chooses how swords are obtained. -/
def swordMode : String := "sword_mode"

/-- The number of shards held at the start. -/
def numStartingTriforceShards : String := "num_starting_triforce_shards"

/-- The number of bosses that must be defeated. -/
def numRequiredBosses : String := "num_required_bosses"

/-- Shuffles the islands to which charts lead. -/
def randomizeCharts : String := "randomize_charts"

/-- Lets treasure charts lead to progress items. -/
def progressionTreasureCharts : String := "progression_treasure_charts"

/-- Lets triforce charts lead to progress items. -/
def progressionTriforceCharts : String := "progression_triforce_charts"

end OptionName

namespace OptionChoice

/-- The mixing mode that merges the dungeon and the island pool. -/
def mixDungeonsAndCavesAndFountains : String := "Mix Dungeons & Caves & Fountains"

/-- The sword mode that grants a sword at the start. -/
def startWithHerosSword : String := "Start with Hero's Sword"

/-- The sword mode that takes swords out of the item pool. -/
def swordless : String := "Swordless"

end OptionChoice

namespace FlagName

/-- A location inside a dungeon. -/
def dungeon : String := "Dungeon"

/-- The location behind the boss of a dungeon. -/
def boss : String := "Boss"

/-- A room that moves when miniboss entrances are shuffled. -/
def randomizableMinibossRoom : String := "Randomizable Miniboss Room"

/-- The progression setting that enables a location flag. Some flags share one setting, and a flag
may have none. -/
def setting? (flag : String) : Option String :=
  match flag with
  | "Dungeon" => some "Dungeons"
  | "Dungeon Secret" => some "Dungeon Secrets"
  | "Great Fairy" => some "Great Fairies"
  | "Puzzle Secret Cave" => some "Puzzle Secret Caves"
  | "Combat Secret Cave" => some "Combat Secret Caves"
  | "Short Sidequest" => some "Short Sidequests"
  | "Long Sidequest" => some "Long Sidequests"
  | "Spoils Trading" => some "Spoils Trading"
  | "Minigame" => some "Minigames"
  | "Free Gift" => some "Free Gifts"
  | "Mail" => some "Mail"
  | "Platform" | "Raft" => some "Lookout Platforms and Rafts"
  | "Submarine" => some "Submarines"
  | "Eye Reef Chest" => some "Eye Reef Chests"
  | "Big Octo" | "Gunboat" => some "Big Octos and Gunboats"
  | "Expensive Purchase" => some "Expensive Purchases"
  | "Other Chest" | "Misc" => some "Miscellaneous"
  | "Tingle Chest" => some "Tingle Chests"
  | "Battlesquid" => some "Battlesquid Minigame"
  | "Savage Labyrinth" => some "Savage Labyrinth"
  | "Island Puzzle" => some "Island Puzzles"
  | _ => none

end FlagName

namespace ItemName

/-- The baton, held at the start of every seed. -/
def windWaker : String := "Wind Waker"

/-- The sail, held at the start of every seed. -/
def boatsSail : String := "Boat's Sail"

/-- The first song, held at the start of every seed. -/
def windsRequiem : String := "Wind's Requiem"

/-- The shards, of which an option grants some at the start. -/
def triforceShard : String := "Triforce Shard"

/-- The sword, whose copies are its successive upgrades. -/
def progressiveSword : String := "Progressive Sword"

/-- The spin attack, which needs a sword. -/
def hurricaneSpin : String := "Hurricane Spin"

end ItemName

end SeedLogic
