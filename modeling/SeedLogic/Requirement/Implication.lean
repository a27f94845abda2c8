import SeedLogic.Requirement.Basic
import SeedLogic.Item

/-!
# Implication between requirements

Implication between trees is decided structurally and rests on a relation between leaves. The
relation used for seeds compares counts: more copies of an item imply fewer copies of the same
item.
-/

namespace SeedLogic

/-- A relation on leaf texts: the first holding guarantees that the second holds. -/
abbrev LeafImplication := String → String → Bool

/-- More copies of an item imply fewer. The terminals are the least and the greatest leaf. -/
def ItemRequirement.implies : LeafImplication := fun a b =>
  if a = b || a = Requirement.impossibleText || b = Requirement.nothingText then true
  else if a = Requirement.nothingText || b = Requirement.impossibleText then false
  else (parse a).item = (parse b).item && (parse b).count ≤ (parse a).count

namespace Requirement

/-- The premises and conclusions that need no look at operands: equal trees, an impossible
premise and a trivial conclusion. -/
def impliesAtOnce (a b : Requirement) : Bool :=
  a = b || a.isImpossible || b.isNothing

/-- Whether `a` holding guarantees that `b` holds, as far as the structure of the trees and the
relation on leaves show. -/
def implies (leafImplies : LeafImplication) (a b : Requirement) : Bool :=
  if a.impliesAtOnce b then true
  else
    match a, b with
    | a, .all targets => targets.attach.all fun ⟨target, _⟩ => implies leafImplies a target
    | .any sources, b => sources.attach.all fun ⟨source, _⟩ => implies leafImplies source b
    | .leaf x, .leaf y => leafImplies x y
    | .all sources, .any targets =>
      (sources.attach.any fun ⟨source, _⟩ => implies leafImplies source (.any targets)) ||
        targets.attach.any fun ⟨target, _⟩ => implies leafImplies (.all sources) target
    | .all sources, .leaf y =>
      sources.attach.any fun ⟨source, _⟩ => implies leafImplies source (.leaf y)
    | .leaf x, .any targets =>
      targets.attach.any fun ⟨target, _⟩ => implies leafImplies (.leaf x) target
termination_by sizeOf a + sizeOf b

section Equations

variable (leafImplies : LeafImplication) {a b : Requirement} {sources targets : List Requirement}

/-- What needs no look at operands is implied. -/
theorem implies_of_atOnce (h : a.impliesAtOnce b = true) :
    a.implies leafImplies b = true := by
  rw [implies.eq_def, if_pos h]

/-- A conjunction is implied when each of its operands is. -/
theorem implies_all (h : a.impliesAtOnce (.all targets) = false) :
    a.implies leafImplies (.all targets) = targets.all (a.implies leafImplies ·) := by
  rw [implies.eq_def, if_neg (by simp [h])]
  simp

/-- A disjunction implies what each of its operands implies. -/
theorem any_implies (h : impliesAtOnce (.any sources) b = false)
    (hb : ∀ targets, b ≠ .all targets) :
    (any sources).implies leafImplies b = sources.all (·.implies leafImplies b) := by
  rw [implies.eq_def, if_neg (by simp [h])]
  cases b with
  | all targets => exact absurd rfl (hb targets)
  | leaf _ => simp
  | any _ => simp

/-- Between leaves the relation on leaves decides. -/
theorem leaf_implies_leaf {x y : String} (h : impliesAtOnce (.leaf x) (.leaf y) = false) :
    (leaf x).implies leafImplies (.leaf y) = leafImplies x y := by
  rw [implies.eq_def, if_neg (by simp [h])]

/-- A conjunction implies a disjunction when one of its operands does, or when it implies one of
the operands. -/
theorem all_implies_any (h : impliesAtOnce (.all sources) (.any targets) = false) :
    (all sources).implies leafImplies (.any targets) =
      ((sources.any (·.implies leafImplies (.any targets))) ||
        targets.any ((all sources).implies leafImplies ·)) := by
  rw [implies.eq_def, if_neg (by simp [h])]
  simp

/-- A conjunction implies a leaf when one of its operands does. -/
theorem all_implies_leaf {y : String} (h : impliesAtOnce (.all sources) (.leaf y) = false) :
    (all sources).implies leafImplies (.leaf y) =
      sources.any (·.implies leafImplies (.leaf y)) := by
  rw [implies.eq_def, if_neg (by simp [h])]
  simp

/-- A leaf implies a disjunction when it implies one of the operands. -/
theorem leaf_implies_any {x : String} (h : impliesAtOnce (.leaf x) (.any targets) = false) :
    (leaf x).implies leafImplies (.any targets) =
      targets.any ((leaf x).implies leafImplies ·) := by
  rw [implies.eq_def, if_neg (by simp [h])]
  simp

end Equations

end Requirement

end SeedLogic
