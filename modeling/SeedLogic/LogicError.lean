/-!
# Errors of the logic

Each constructor is one cause; `message` gives its wording.
-/

namespace SeedLogic

/-- Why a requirement or a query about the tables has no answer. -/
inductive LogicError where
  | unbalancedParentheses (requirement : String) (position : Nat)
  | mixedConnectives (requirement : String) (position : Nat)
  | missingConnective (requirement : String) (position : Nat)
  | nestingTooDeep (requirement : String) (maxDepth : Nat)
  | unknownLocation (general detailed : String)
  | malformedLocationName (name : String)
  | unknownEntrance (name : String)
  | unknownMacro (name : String)
  | unknownIsland (name : String)
  | chartTableMismatch (charts islands : Nat)
  | unknownDungeon (name : String)
  | unknownBossLocation (dungeon : String)
  | unknownRequiredBoss (dungeon : String)
  | duplicateEntry (entry : String)
  | smallKeysUnsatisfiable (general detailed : String)
deriving DecidableEq, Repr

/-- The wording of an error. -/
def LogicError.message : LogicError → String
  | .unbalancedParentheses requirement position =>
    s!"unbalanced parentheses at {position} in requirement `{requirement}`"
  | .mixedConnectives requirement position =>
    s!"mixed `&` and `|` at {position} in requirement `{requirement}`"
  | .missingConnective requirement position =>
    s!"missing connective before {position} in requirement `{requirement}`"
  | .nestingTooDeep requirement maxDepth =>
    s!"requirement nesting exceeds {maxDepth} levels in `{requirement}`"
  | .unknownLocation general detailed => s!"unknown location: {general} - {detailed}"
  | .malformedLocationName name => s!"malformed location name: {name}"
  | .unknownEntrance name => s!"unknown entrance: {name}"
  | .unknownMacro name => s!"unknown macro: {name}"
  | .unknownIsland name => s!"unknown island: {name}"
  | .chartTableMismatch charts islands =>
    s!"chart table has {charts} entries but island table has {islands}"
  | .unknownDungeon name => s!"unknown dungeon: {name}"
  | .unknownBossLocation dungeon => s!"no boss location for dungeon: {dungeon}"
  | .unknownRequiredBoss dungeon => s!"no required boss for dungeon: {dungeon}"
  | .duplicateEntry entry => s!"duplicate table entry: {entry}"
  | .smallKeysUnsatisfiable general detailed =>
    s!"could not determine keys required for location: {general} - {detailed}"

end SeedLogic
