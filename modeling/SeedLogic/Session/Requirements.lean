import SeedLogic.Requirement.Build
import SeedLogic.Requirement.Simplify
import SeedLogic.Session.Basic

/-!
# Requirements of locations and entrances

Every atom of a requirement text is expanded until only item requirements, terminals and, outside
flattened mode, bosses remain. Expansions nest at most `maxExpansionDepth` deep, so circular
definitions are refused. The unsimplified trees of locations are remembered, also those that were
built while expanding another one.
-/

namespace SeedLogic.Session

/-- How deep expansions may nest. -/
def maxExpansionDepth : Nat := 64

/-- The unsimplified tree of a location whose atoms are expanded as given. -/
def rawLocationWith (expand : Bool → String → Query Requirement) (general detailed : String)
    (flattened : Bool) : Query Requirement :=
  remember (.rawLocation general detailed flattened) do
    let entry ← (← get).data.locationEntry general detailed
    Requirement.buildWith (expand flattened) entry.need

/-- The tree that replaces an atom when expansions may nest `depth` more levels. -/
def expandAtom : Nat → Bool → String → Query Requirement
  | 0, flattened, atom => do
    match ← (← get).resolution.expansion flattened atom with
    | .tree r => pure r
    | _ => throw (.nestingTooDeep atom maxExpansionDepth)
  | depth + 1, flattened, atom => do
    match ← (← get).resolution.expansion flattened atom with
    | .tree r => pure r
    | .requirement text => Requirement.buildWith (expandAtom depth flattened) text
    | .location general detailed flattened =>
      rawLocationWith (expandAtom depth) general detailed flattened

/-- The unsimplified tree of a requirement text. -/
def rawTree (requirement : String) (flattened : Bool) : Query Requirement :=
  Requirement.buildWith (expandAtom maxExpansionDepth flattened) requirement

/-- The unsimplified tree of a location. -/
def rawLocationTree (general detailed : String) (flattened : Bool) : Query Requirement :=
  rawLocationWith (expandAtom maxExpansionDepth) general detailed flattened

/-- A tree simplified by comparing item counts. -/
def simplified (r : Requirement) : Requirement :=
  r.simplify ItemRequirement.implies

/-- The simplified tree of a location. -/
def locationTree (general detailed : String) (flattened : Bool) : Query Requirement :=
  remember (.location general detailed flattened) do
    let raw ← rawLocationTree general detailed flattened
    pure (simplified raw)

/-- The simplified requirements of a location. -/
def requirementsForLocation (general detailed : String) (flattened : Bool) :
    Query Requirement :=
  audited "requirements_for_location" (locationTree general detailed flattened)

/-- The unsimplified requirements of a location. -/
def rawRequirementsForLocation (general detailed : String) (flattened : Bool) :
    Query Requirement :=
  audited "raw_requirements_for_location" (rawLocationTree general detailed flattened)

/-- The simplified requirements of an entrance: those of the requirement text that consists of
the name of its macro. -/
def requirementsForEntrance (entrance : String) : Query Requirement :=
  audited "requirements_for_entrance" <| remember (.entrance entrance) do
    let name ← (← get).data.macroNameOfEntrance entrance
    let raw ← rawTree name false
    pure (simplified raw)

/-- The simplified tree of a requirement text. -/
def buildRequirement (requirement : String) (flattened : Bool) : Query Requirement :=
  audited "build_requirement" do
    let raw ← rawTree requirement flattened
    pure (simplified raw)

end SeedLogic.Session
