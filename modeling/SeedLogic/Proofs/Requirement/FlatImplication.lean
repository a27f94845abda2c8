import Mathlib.Data.Nat.Find
import SeedLogic.Proofs.Requirement.Equivalence
import SeedLogic.Proofs.Requirement.Meaning
import SeedLogic.Proofs.Requirement.Substitution

/-!
# Implication between flat operands

Implication only looks at the structure of trees. So it misses whatever rests on distributing one
connective over the other. It misses nothing as soon as one side is flat: a conjunction of leaves
that implies, or a disjunction of leaves that is implied.

Whenever a set of leaves is closed under implication, there is an inventory with which exactly
these leaves hold, leaving aside the terminals and the leaves that ask for nothing. For a flat
premise, the leaves that it implies are such a set, and the inventory is the least one with which it
holds. For a flat conclusion, the leaves that do not imply it are such a set, and the inventory is
the greatest one with which it fails. In the order of a connective both are the same argument: with
this inventory, a tree that keeps a node undecided is absorbed by the flat node.

## Main definitions

* `Requirement.Flat` : leaves, and nodes over leaves.
* `Requirement.Demanding` : trees without a leaf that asks for zero copies.

## Main results

* `ItemRequirement.exists_inventory_of_closed` : inventories for sets of leaves.
* `Requirement.absorbs_iff_of_flat` : what a flat node absorbs.
* `Requirement.implies_iff_of_flat` : implication is complete when one side is flat.
-/

namespace SeedLogic

open Requirement

/-! ### Inventories for sets of leaves -/

namespace ItemRequirement

/-- The leaves of a set that is closed under implication are those that hold with some inventory,
as far as they are no terminals and ask for something. The inventory has as many copies of an item
as any leaf of the set asks for. -/
theorem exists_inventory_of_closed {closed : String → Prop}
    (hclosed : ∀ x y, closed x → implies x y = true → closed y) :
    ∃ inventory : String → Nat, ∀ text, isTerminal text = false → (parse text).count ≠ 0 →
      (heldIn inventory text = true ↔ closed text) := by
  classical
  let asked (item : String) (copies : Nat) : Prop :=
    ∃ text, isTerminal text = false ∧ closed text ∧ (parse text).item = item ∧
      copies ≤ (parse text).count.toNat
  let inventory (item : String) : Nat := Nat.findGreatest (asked item) UInt32.size
  refine ⟨inventory, fun text hterminal hcount => ?_⟩
  obtain ⟨hnothing, himpossible⟩ : text ≠ nothingText ∧ text ≠ impossibleText := by
    simpa [isTerminal] using hterminal
  have hpositive : 0 < (parse text).count.toNat :=
    Nat.pos_of_ne_zero fun hzero => hcount (UInt32.toNat_inj.1 hzero)
  constructor
  · intro hheld
    have hle : (parse text).count.toNat ≤ inventory (parse text).item := of_decide_eq_true hheld
    obtain ⟨stronger, hstronger, hmem, hitem, hasked⟩ : asked (parse text).item
        (inventory (parse text).item) :=
      Nat.findGreatest_of_ne_zero rfl (Nat.ne_of_gt (Nat.lt_of_lt_of_le hpositive hle))
    have hne : stronger ≠ nothingText := by
      rintro rfl
      exact Bool.false_ne_true (hstronger.symm.trans (by decide))
    have hmore : (parse text).count ≤ (parse stronger).count :=
      UInt32.le_iff_toNat_le.2 (Nat.le_trans hle hasked)
    exact hclosed stronger text hmem
      (implies_iff.2 (Or.inr (Or.inr (Or.inr ⟨hne, himpossible, hitem, hmore⟩))))
  · intro hmem
    have hbound : (parse text).count.toNat ≤ UInt32.size :=
      Nat.le_of_lt (UInt32.toNat_lt_size _)
    have hasked : asked (parse text).item (parse text).count.toNat :=
      ⟨text, hterminal, hmem, rfl, Nat.le_refl _⟩
    exact decide_eq_true (Nat.le_findGreatest hbound hasked)

end ItemRequirement

namespace Requirement

variable {leafImplies : LeafImplication} {connective : Connective} {held : String → Bool}
  {a b r : Requirement}

/-! ### Flat nodes -/

/-- A leaf, or a node of the connective over leaves. -/
inductive Flat (connective : Connective) : Requirement → Prop
  | leaf (text : String) : Flat connective (.leaf text)
  | node (texts : List String) : Flat connective (join connective (texts.map .leaf))

private theorem leaves_join_leaves (texts : List String) :
    (join connective (texts.map .leaf)).leaves = texts := by
  rw [leaves_join, List.flatMap_map]
  simp

/-- A flat node absorbs each of its leaves. -/
theorem Flat.absorbs_leaf (h : Flat connective r) {text : String} (htext : text ∈ r.leaves) :
    absorbs leafImplies connective r (.leaf text) = true := by
  cases h with
  | leaf other =>
    obtain rfl : text = other := by simpa using htext
    exact absorbs_refl _
  | node texts =>
    rw [leaves_join_leaves] at htext
    exact absorbs_join_iff.1 (absorbs_refl _) _ (List.mem_map_of_mem htext)

/-- A flat node is decided by a leaf. -/
theorem Flat.exists_of_evaluate (h : Flat connective r)
    (hr : r.evaluate held = connective.decisive) :
    ∃ text ∈ r.leaves, evaluate held (.leaf text) = connective.decisive := by
  cases h with
  | leaf text => exact ⟨text, by simp, hr⟩
  | node texts =>
    obtain ⟨_, hmem, hdecides⟩ := evaluate_join_iff.1 hr
    obtain ⟨text, htext, rfl⟩ := List.mem_map.1 hmem
    exact ⟨text, (leaves_join_leaves texts).symm ▸ htext, hdecides⟩

/-! ### What a node absorbs -/

/-- What absorbs an operand of a node of the other connective absorbs the node. -/
private theorem absorbs_other_of_mem {other : Connective} (hother : other ≠ connective)
    {rs : List Requirement} (hr : r ∈ rs) (h : absorbs leafImplies connective a r = true) :
    absorbs leafImplies connective a (join other rs) = true := by
  cases connective with
  | and =>
    cases other with
    | and => exact absurd rfl hother
    | or => exact implies_any_of_mem hr h
  | or =>
    cases other with
    | and => exact all_implies_of_mem hr h
    | or => exact absurd rfl hother

/-- A tree that absorbs all leaves with the value that leaves a node undecided absorbs the trees
with this value. -/
theorem absorbs_of_evaluate
    (hleaves : ∀ text ∈ b.leaves, (leaf text).evaluate held = (!connective.decisive) →
      absorbs leafImplies connective a (.leaf text) = true)
    (hb : b.evaluate held = !connective.decisive) :
    absorbs leafImplies connective a b = true := by
  induction b using joinInduction with
  | leaf text => exact hleaves text (by simp) hb
  | node other rs ih =>
    have hoperand (r : Requirement) (hr : r ∈ rs)
        (hvalue : r.evaluate held = !connective.decisive) :
        absorbs leafImplies connective a r = true :=
      ih r hr (fun text htext => hleaves text (mem_leaves_join.2 ⟨r, hr, htext⟩)) hvalue
    by_cases hother : other = connective
    · subst hother
      exact absorbs_join_iff.2 fun r hr => hoperand r hr (evaluate_join_eq_not_iff.1 hb r hr)
    · rw [← Connective.decisive_of_ne hother] at hb
      obtain ⟨r, hr, hdecides⟩ := evaluate_join_iff.1 hb
      exact absorbs_other_of_mem hother hr
        (hoperand r hr (hdecides.trans (Connective.decisive_of_ne hother)))

/-! ### Completeness -/

/-- No leaf of the tree asks for zero copies of an item. -/
def Demanding (r : Requirement) : Prop :=
  ∀ text ∈ r.leaves, (ItemRequirement.parse text).count ≠ 0

instance (r : Requirement) : Decidable r.Demanding :=
  inferInstanceAs (Decidable (∀ text ∈ r.leaves, _))

/-- The leaves that a tree absorbs, unless it absorbs everything, are those that leave a node
undecided with some inventory. -/
private theorem exists_inventory_of_not_absorbs
    (h : absorbs ItemRequirement.implies connective a (.leaf connective.annihilatorText) = false) :
    ∃ inventory : String → Nat, ∀ text, (ItemRequirement.parse text).count ≠ 0 →
      ((leaf text).evaluate (ItemRequirement.heldIn inventory) = (!connective.decisive) ↔
        absorbs ItemRequirement.implies connective a (.leaf text) = true) := by
  have hleaf := ItemRequirement.implies_ordered
  have hclosed : ∀ x y, absorbs ItemRequirement.implies connective a (.leaf x) =
      (!connective.decisive) → ItemRequirement.implies x y = true →
        absorbs ItemRequirement.implies connective a (.leaf y) = !connective.decisive := by
    intro x y hx hxy
    have himplies := (leaf_implies_leaf_iff hleaf).2 hxy
    cases connective with
    | and => exact implies_trans hleaf hx himplies
    | or =>
      refine Bool.eq_false_iff.2 fun hy => ?_
      exact Bool.false_ne_true (hx.symm.trans (implies_trans hleaf himplies hy))
  obtain ⟨inventory, hinventory⟩ := ItemRequirement.exists_inventory_of_closed hclosed
  refine ⟨inventory, fun text hcount => ?_⟩
  by_cases hidentity : text = connective.identityText
  · subst hidentity
    exact iff_of_true evaluate_identity absorbs_identity
  by_cases hannihilator : text = connective.annihilatorText
  · subst hannihilator
    rw [evaluate_annihilator, h]
    exact iff_of_false (by simp) Bool.false_ne_true
  have hterminal : isTerminal text = false := by
    cases connective <;>
      simp_all [isTerminal, Connective.identityText, Connective.annihilatorText]
  have hheld := hinventory text hterminal hcount
  have hbool : ∀ x y value : Bool, (x = true ↔ y = value) → (x = value ↔ y = true) := by decide
  rw [evaluate_leaf_of_isTerminal_eq_false _ hterminal]
  exact hbool _ _ _ hheld

/-- A flat node absorbs a tree exactly when it is decided with every inventory with which the tree
decides. -/
theorem absorbs_iff_of_flat (ha : a.Demanding) (hb : b.Demanding) (hflat : Flat connective a) :
    absorbs ItemRequirement.implies connective a b = true ↔
      ∀ inventory : String → Nat,
        b.evaluate (ItemRequirement.heldIn inventory) = connective.decisive →
          a.evaluate (ItemRequirement.heldIn inventory) = connective.decisive := by
  constructor
  · exact fun h inventory hdecides =>
      evaluate_of_absorbs (ItemRequirement.implies_sound inventory) h hdecides
  · intro hall
    cases hannihilator : absorbs ItemRequirement.implies connective a
        (.leaf connective.annihilatorText) with
    | true => exact absorbs_trans ItemRequirement.implies_ordered hannihilator annihilator_absorbs
    | false =>
      obtain ⟨inventory, hinventory⟩ := exists_inventory_of_not_absorbs hannihilator
      have hundecided : a.evaluate (ItemRequirement.heldIn inventory) ≠ connective.decisive := by
        intro hdecides
        obtain ⟨text, htext, hdecides⟩ := hflat.exists_of_evaluate hdecides
        have hother := (hinventory text (ha text htext)).2 (hflat.absorbs_leaf htext)
        exact Bool.eq_not.1 hother hdecides
      have hvalue : b.evaluate (ItemRequirement.heldIn inventory) = !connective.decisive :=
        Bool.eq_not.2 fun hdecides => hundecided (hall inventory hdecides)
      exact absorbs_of_evaluate (fun text htext => (hinventory text (hb text htext)).1) hvalue

/-- Comparing item counts, a tree without leaves that ask for zero copies implies another one
exactly when the other one holds with every inventory with which it holds itself, provided that the
premise is a leaf or a conjunction of leaves, or that the conclusion is a leaf or a disjunction of
leaves. -/
theorem implies_iff_of_flat (ha : a.Demanding) (hb : b.Demanding)
    (hflat : Flat .and a ∨ Flat .or b) :
    a.implies ItemRequirement.implies b = true ↔
      ∀ inventory : String → Nat, a.evaluate (ItemRequirement.heldIn inventory) = true →
        b.evaluate (ItemRequirement.heldIn inventory) = true := by
  rcases hflat with hflat | hflat
  · have habsorbs : a.implies ItemRequirement.implies b = true ↔
        ∀ inventory : String → Nat, b.evaluate (ItemRequirement.heldIn inventory) = false →
          a.evaluate (ItemRequirement.heldIn inventory) = false :=
      absorbs_iff_of_flat ha hb hflat
    rw [habsorbs]
    refine forall_congr' fun inventory => ?_
    rw [← Bool.not_eq_true, ← Bool.not_eq_true, not_imp_not]
  · exact absorbs_iff_of_flat hb ha hflat

/-- Three keys and a bow open the gate with every inventory that holds them, and some inventory
that holds them lacks the fourth key for the vault. -/
theorem implies_iff_of_flat_keys :
    let keysAndBow := all [.leaf "Small Key x3", .leaf "Bow"]
    let gate :=
      any [.leaf "Boat", .all [.any [.leaf "Small Key x2", .leaf "Hookshot"], .leaf "Bow"]]
    let vault := all [.leaf "Bow", .leaf "Small Key x4"]
    keysAndBow.Demanding ∧ gate.Demanding ∧ vault.Demanding ∧ Flat .and keysAndBow ∧
    keysAndBow.implies ItemRequirement.implies gate = true ∧
    (∀ inventory : String → Nat, keysAndBow.evaluate (ItemRequirement.heldIn inventory) = true →
      gate.evaluate (ItemRequirement.heldIn inventory) = true) ∧
    keysAndBow.implies ItemRequirement.implies vault = false ∧
    ∃ inventory : String → Nat, keysAndBow.evaluate (ItemRequirement.heldIn inventory) = true ∧
      vault.evaluate (ItemRequirement.heldIn inventory) = false := by
  intro keysAndBow gate vault
  have hkeys : keysAndBow.Demanding := by decide +kernel
  have hgate : gate.Demanding := by decide +kernel
  have hvault : vault.Demanding := by decide +kernel
  have hflat : Flat .and keysAndBow := .node ["Small Key x3", "Bow"]
  have himplied : keysAndBow.implies ItemRequirement.implies gate = true := by decide +kernel
  have hmissed : keysAndBow.implies ItemRequirement.implies vault = false := by decide +kernel
  refine ⟨hkeys, hgate, hvault, hflat, himplied,
    (implies_iff_of_flat hkeys hgate (Or.inl hflat)).1 himplied, hmissed, ?_⟩
  have hrefuted := mt (implies_iff_of_flat hkeys hvault (Or.inl hflat)).2 (by simp [hmissed])
  push Not at hrefuted
  obtain ⟨inventory, hheld, hfails⟩ := hrefuted
  exact ⟨inventory, hheld, Bool.eq_false_iff.2 hfails⟩

/-- Between two nodes of which neither is flat, distribution is missed. -/
example :
    (all [.leaf "Bow", .any [.leaf "Boat", .leaf "Hookshot"]]).implies ItemRequirement.implies
      (any [.all [.leaf "Bow", .leaf "Boat"], .all [.leaf "Bow", .leaf "Hookshot"]]) = false := by
  decide +kernel

end Requirement

end SeedLogic
