import SeedLogic.Session.Locations

/-!
# Display names

Items may have a display name for each count. Without one, the count is shown after the name when
more than one copy exists.
-/

namespace SeedLogic

/-- The settings behind the flags of a location, in order and without repetition. A flag without a
setting stands for itself. -/
def FlagName.settingsText (types : String) : String :=
  let flags := (Text.pieces ',' types.toList).map fun piece => String.ofList (Text.trim piece)
  let settings := flags.map fun flag => (setting? flag).getD flag
  ", ".intercalate (settings.foldl (fun shown setting =>
    if shown.contains setting then shown else shown ++ [setting]) [])

namespace Session

/-- The display name of an item of which `count` copies are held, if that is known. -/
def itemDisplayName (s : Session) (item : String) (count : Option UInt32) : String :=
  match s.data.prettyItemName? item (count.getD 1) with
  | some name => name
  | none =>
    match count with
    | none => item
    | some count =>
      let maximum := s.maxItemCount item
      if 1 < maximum then
        item ++ " (" ++ Text.decimal count.toNat ++ "/" ++ Text.decimal maximum.toNat ++ ")"
      else item

/-- The display name of an item requirement. -/
def requirementDisplayName (s : Session) (requirement : String) : String :=
  let need := (ItemRequirement.parse? requirement).getD ⟨requirement, 1⟩
  (s.data.prettyItemName? need.item need.count).getD requirement

/-- The remembered display name of an item. -/
def prettyNameForItem (item : String) (count : Option UInt32) : Query String :=
  remember (.itemName item count) do
    pure ((← get).itemDisplayName item count)

/-- The remembered display name of an item requirement. -/
def prettyNameForItemRequirement (requirement : String) : Query String :=
  remember (.itemRequirementName requirement) do
    pure ((← get).requirementDisplayName requirement)

end Session

end SeedLogic
