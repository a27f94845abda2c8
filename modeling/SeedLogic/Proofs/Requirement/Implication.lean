import SeedLogic.Requirement.Evaluate
import SeedLogic.Requirement.Implication

/-!
# Soundness of implication

A relation on leaves is sound for a choice of held leaves when it leads from leaves that hold only
to leaves that hold. Implication between trees inherits this: what follows from a requirement that
holds, holds too. Comparing item counts is sound whenever more copies of an item do not hurt, as in
every inventory.

## Main definitions

* `LeafImplication.Sound` : soundness of a relation on leaves.
* `ItemRequirement.heldIn` : the leaves that hold with an inventory.

## Main results

* `Requirement.evaluate_of_implies` : implication between trees is sound.
* `ItemRequirement.implies_sound_of_mono`, `ItemRequirement.implies_sound` : comparing item counts
  is sound.
* `Requirement.implication_sound` : implication is sound, for inventories in particular.
-/

namespace SeedLogic

open Requirement

/-- A relation on leaves is sound when every leaf that follows from a leaf that holds, holds too.
Terminals hold or fail without being asked about. -/
def LeafImplication.Sound (leafImplies : LeafImplication) (held : String → Bool) : Prop :=
  ∀ a b, leafImplies a b = true →
    evaluate held (.leaf a) = true → evaluate held (.leaf b) = true

namespace Requirement

variable {leafImplies : LeafImplication} {held : String → Bool} {a b : Requirement}

private theorem evaluate_of_isNothing (h : b.isNothing = true) : b.evaluate held = true := by
  cases b with
  | leaf text =>
    have htext : text = nothingText := by simpa [isNothing] using h
    simp [evaluate_leaf, htext]
  | all operands => simp [isNothing] at h
  | any operands => simp [isNothing] at h

private theorem evaluate_of_isImpossible (h : a.isImpossible = true) :
    a.evaluate held = false := by
  cases a with
  | leaf text =>
    have htext : text = impossibleText := by simpa [isImpossible] using h
    simp [evaluate_leaf, htext, impossibleText, nothingText]
  | all operands => simp [isImpossible] at h
  | any operands => simp [isImpossible] at h

private theorem evaluate_of_impliesAtOnce (h : a.impliesAtOnce b = true)
    (ha : a.evaluate held = true) : b.evaluate held = true := by
  simp only [impliesAtOnce, Bool.or_eq_true, decide_eq_true_eq] at h
  rcases h with (rfl | himpossible) | hnothing
  · exact ha
  · rw [evaluate_of_isImpossible himpossible] at ha
    exact absurd ha Bool.false_ne_true
  · exact evaluate_of_isNothing hnothing

/-- Implication between trees is sound whenever the relation on leaves is. -/
theorem evaluate_of_implies (hsound : leafImplies.Sound held)
    (h : a.implies leafImplies b = true) (ha : a.evaluate held = true) :
    b.evaluate held = true := by
  -- The induction follows the recursion of `implies`, one case for each of its branches.
  induction a, b using implies.induct with
  | case1 a b hnow => exact evaluate_of_impliesAtOnce hnow ha
  | case2 a targets hnow ih =>
    rw [implies_all leafImplies (Bool.eq_false_iff.2 hnow), List.all_eq_true] at h
    rw [evaluate_all, List.all_eq_true]
    intro target hmem
    exact ih target hmem (h target hmem) ha
  | case3 sources b hb hnow ih =>
    rw [any_implies leafImplies (Bool.eq_false_iff.2 hnow) hb, List.all_eq_true] at h
    rw [evaluate_any, List.any_eq_true] at ha
    obtain ⟨source, hmem, hsource⟩ := ha
    exact ih source hmem (h source hmem) hsource
  | case4 x y hnow =>
    rw [leaf_implies_leaf leafImplies (Bool.eq_false_iff.2 hnow)] at h
    exact hsound x y h ha
  | case5 sources targets hnow ihSource ihTarget =>
    rw [all_implies_any leafImplies (Bool.eq_false_iff.2 hnow), Bool.or_eq_true,
      List.any_eq_true, List.any_eq_true] at h
    rcases h with ⟨source, hmem, hsource⟩ | ⟨target, hmem, htarget⟩
    · rw [evaluate_all, List.all_eq_true] at ha
      exact ihSource source hmem hsource (ha source hmem)
    · rw [evaluate_any, List.any_eq_true]
      exact ⟨target, hmem, ihTarget target hmem htarget ha⟩
  | case6 sources y hnow ih =>
    rw [all_implies_leaf leafImplies (Bool.eq_false_iff.2 hnow), List.any_eq_true] at h
    obtain ⟨source, hmem, hsource⟩ := h
    rw [evaluate_all, List.all_eq_true] at ha
    exact ih source hmem hsource (ha source hmem)
  | case7 x targets hnow ih =>
    rw [leaf_implies_any leafImplies (Bool.eq_false_iff.2 hnow), List.any_eq_true] at h
    obtain ⟨target, hmem, htarget⟩ := h
    rw [evaluate_any, List.any_eq_true]
    exact ⟨target, hmem, ih target hmem htarget ha⟩

end Requirement

namespace ItemRequirement

/-- Whether an inventory holds as many copies of an item as a leaf asks for. -/
def heldIn (inventory : String → Nat) (text : String) : Bool :=
  (parse text).count.toNat ≤ inventory (parse text).item

/-- Comparing item counts is sound when a leaf that holds does so along with every leaf that asks
for no more copies of the same item. -/
theorem implies_sound_of_mono {held : String → Bool}
    (hmono : ∀ a b, (parse a).item = (parse b).item → (parse b).count ≤ (parse a).count →
      held a = true → held b = true) : LeafImplication.Sound implies held := by
  intro a b h ha
  rw [implies] at h
  split at h
  case isTrue hnow =>
    exact evaluate_of_impliesAtOnce (a := .leaf a) (b := .leaf b)
      (by simpa [impliesAtOnce, isImpossible, isNothing] using hnow) ha
  case isFalse hlater =>
    split at h
    case isTrue => exact absurd h Bool.false_ne_true
    case isFalse hterminal =>
      -- Neither leaf is a terminal, so both are decided by what is held.
      simp only [Bool.or_eq_true, decide_eq_true_eq, not_or] at hlater hterminal
      obtain ⟨hitem, hcount⟩ : (parse a).item = (parse b).item ∧
          (parse b).count ≤ (parse a).count := by
        simpa only [Bool.and_eq_true, decide_eq_true_eq] using h
      have ha' : held a = true := by
        simpa [evaluate_leaf, hlater, hterminal] using ha
      have hb : held b = true := hmono a b hitem hcount ha'
      simpa [evaluate_leaf, hlater, hterminal] using hb

/-- Comparing item counts is sound for every inventory. -/
theorem implies_sound (inventory : String → Nat) :
    LeafImplication.Sound implies (heldIn inventory) := by
  refine implies_sound_of_mono fun a b hitem hcount ha => ?_
  rw [UInt32.le_iff_toNat_le] at hcount
  have henough : (parse a).count.toNat ≤ inventory (parse a).item := of_decide_eq_true ha
  rw [hitem] at henough
  exact decide_eq_true (Nat.le_trans hcount henough)

end ItemRequirement

namespace Requirement

/-- What a tree that holds implies, holds as well: for every relation on leaves and every choice of
held leaves for which the relation is sound, and thus for item counts and every inventory. -/
theorem implication_sound :
    (∀ (leafImplies : LeafImplication) (held : String → Bool), leafImplies.Sound held →
      ∀ a b : Requirement, a.implies leafImplies b = true → a.evaluate held = true →
        b.evaluate held = true) ∧
    ∀ (inventory : String → Nat) (a b : Requirement), a.implies ItemRequirement.implies b = true →
      a.evaluate (ItemRequirement.heldIn inventory) = true →
      b.evaluate (ItemRequirement.heldIn inventory) = true :=
  ⟨fun _ _ hsound _ _ hab ha => evaluate_of_implies hsound hab ha,
    fun inventory _ _ hab ha =>
      evaluate_of_implies (ItemRequirement.implies_sound inventory) hab ha⟩

/-- Whoever holds three keys and a bow holds what they imply, two keys or a boat, and what these
imply in turn. -/
theorem implication_sound_keys :
    let held := ItemRequirement.heldIn fun item =>
      if item = "Small Key" then 3 else if item = "Bow" then 1 else 0
    let keysAndBow := all [.leaf "Small Key x3", .leaf "Bow"]
    let keysOrBoat := any [.leaf "Small Key x2", .leaf "Boat"]
    let keyOrBoat := any [.leaf "Boat", .leaf "Small Key"]
    LeafImplication.Sound ItemRequirement.implies held ∧
    keysAndBow.implies ItemRequirement.implies keysOrBoat = true ∧
    keysAndBow.evaluate held = true ∧ keysOrBoat.evaluate held = true ∧
    keysOrBoat.implies ItemRequirement.implies keyOrBoat = true ∧
    keyOrBoat.evaluate held = true := by
  intro held keysAndBow keysOrBoat keyOrBoat
  have hsound : LeafImplication.Sound ItemRequirement.implies held :=
    ItemRequirement.implies_sound _
  have hfirst : keysAndBow.implies ItemRequirement.implies keysOrBoat = true := by
    decide +kernel
  have hholds : keysAndBow.evaluate held = true := by decide +kernel
  have hkeys : keysOrBoat.evaluate held = true :=
    implication_sound.1 _ _ hsound _ _ hfirst hholds
  have hsecond : keysOrBoat.implies ItemRequirement.implies keyOrBoat = true := by
    decide +kernel
  exact ⟨hsound, hfirst, hholds, hkeys, hsecond, implication_sound.2 _ _ _ hsecond hkeys⟩

end Requirement

end SeedLogic
