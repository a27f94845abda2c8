import SeedLogic.Requirement.Implication

/-!
# Simplification of requirement trees

A tree is simplified from the leaves up. At each node, operands joined by the same connective are
spliced in, terminals are folded, and operands made redundant by another operand are dropped. A
node that keeps a single operand becomes that operand.
-/

namespace SeedLogic

namespace Connective

/-- The terminal that may be left out among the operands. -/
def identityText : Connective → String
  | .and => Requirement.nothingText
  | .or => Requirement.impossibleText

/-- The terminal that decides the whole node. -/
def annihilatorText : Connective → String
  | .and => Requirement.impossibleText
  | .or => Requirement.nothingText

end Connective

namespace Requirement

/-- The operands that a simplified tree contributes to a node: those of a tree joined by the same
connective, else the tree itself. -/
def splice : Connective → Requirement → List Requirement
  | .and, .all operands => operands
  | .or, .any operands => operands
  | _, r => [r]

/-- A tree joined by the same connective contributes its operands. -/
theorem splice_join (connective : Connective) (operands : List Requirement) :
    splice connective (join connective operands) = operands := by
  cases connective <;> rfl

/-- Any other tree contributes itself. -/
theorem splice_eq_singleton {connective : Connective} {r : Requirement}
    (h : ∀ operands, r ≠ join connective operands) : splice connective r = [r] := by
  cases connective <;> cases r <;> first | rfl | exact absurd rfl (h _)

/-- The operands of a node without its identity terminals and with nested operands spliced in, or
nothing when an operand decides the whole node. -/
def flatten (connective : Connective) : List Requirement → Option (List Requirement)
  | [] => some []
  | r :: rs =>
    if r = .leaf connective.annihilatorText then none
    else if r = .leaf connective.identityText then flatten connective rs
    else (flatten connective rs).map (splice connective r ++ ·)

/-- Whether `keeper` makes `dropped` redundant: in a conjunction the stronger operand stays, in a
disjunction the weaker one. -/
def absorbs (leafImplies : LeafImplication) (connective : Connective)
    (keeper dropped : Requirement) : Bool :=
  match connective with
  | .and => keeper.implies leafImplies dropped
  | .or => dropped.implies leafImplies keeper

/-- Offers an operand to those kept so far: it is skipped when one of them absorbs it, and
otherwise replaces those that it absorbs. -/
def offer (leafImplies : LeafImplication) (connective : Connective) (kept : List Requirement)
    (candidate : Requirement) : List Requirement :=
  if kept.any fun r => absorbs leafImplies connective r candidate then kept
  else (kept.filter fun r => !absorbs leafImplies connective candidate r) ++ [candidate]

/-- The node over the operands that remain. -/
def collapse (connective : Connective) : List Requirement → Requirement
  | [] => .leaf connective.identityText
  | [r] => r
  | rs => join connective rs

/-- The simplified node over simplified operands. -/
def combine (leafImplies : LeafImplication) (connective : Connective)
    (operands : List Requirement) : Requirement :=
  match flatten connective operands with
  | none => .leaf connective.annihilatorText
  | some flat => collapse connective (flat.foldl (offer leafImplies connective) [])

mutual

/-- The simplified tree. -/
def simplify (leafImplies : LeafImplication) : Requirement → Requirement
  | .leaf text => .leaf text
  | .all operands => combine leafImplies .and (simplifyList leafImplies operands)
  | .any operands => combine leafImplies .or (simplifyList leafImplies operands)

/-- The simplified trees of a list. -/
def simplifyList (leafImplies : LeafImplication) : List Requirement → List Requirement
  | [] => []
  | r :: rs => simplify leafImplies r :: simplifyList leafImplies rs

end

/-- A list of trees is simplified tree by tree. -/
theorem simplifyList_eq_map (leafImplies : LeafImplication) (rs : List Requirement) :
    simplifyList leafImplies rs = rs.map (simplify leafImplies) := by
  induction rs with
  | nil => rfl
  | cons r rs ih => simp [simplifyList, ih]

/-- A node is simplified by combining its simplified operands. -/
theorem simplify_join (leafImplies : LeafImplication) (connective : Connective)
    (operands : List Requirement) :
    simplify leafImplies (join connective operands) =
      combine leafImplies connective (operands.map (simplify leafImplies)) := by
  cases connective <;> simp only [join, simplify, simplifyList_eq_map]

end Requirement

end SeedLogic
