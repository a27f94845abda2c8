import SeedLogic.Requirement.Implication

/-!
# Implication is a preorder

Implication looks at a conjunction on the right and at a disjunction on the left first, and else
chooses an operand on either side. These are the rules by which the terms of a free lattice are
compared, and their choices compose: a tree between two others can be cut out. A conjunction is cut
out along the tree that it implies, a disjunction along the tree that implies it, and a leaf along
both, so that each step is an induction on a single tree.

The leaves have to be in a preorder in which only the terminals are least and greatest. The
shortcuts for equal trees and for terminals then say no more than what the operands show.

## Main definitions

* `LeafImplication.Ordered` : preorders of leaves that the terminals alone bound.

## Main results

* `Requirement.implies_all_iff` : what implies a conjunction.
* `Requirement.any_implies_iff` : what a disjunction implies.
* `Requirement.implies_trans` : implication is transitive.
* `Requirement.implies_bounded_preorder` : comparing item counts, it is a preorder with bounds.
-/

namespace SeedLogic

open Requirement

/-- A preorder of leaves in which one terminal is least, the other one is greatest, and no other
leaf is either. -/
structure LeafImplication.Ordered (leafImplies : LeafImplication) : Prop where
  refl (a : String) : leafImplies a a = true
  trans {a b c : String} (hab : leafImplies a b = true) (hbc : leafImplies b c = true) :
    leafImplies a c = true
  impossible_implies (a : String) : leafImplies impossibleText a = true
  implies_nothing (a : String) : leafImplies a nothingText = true
  eq_impossible {a : String} (h : leafImplies a impossibleText = true) : a = impossibleText
  eq_nothing {a : String} (h : leafImplies nothingText a = true) : a = nothingText

namespace Requirement

variable {leafImplies : LeafImplication} {a b c s t : Requirement} {ss ts : List Requirement}
  {x y : String}

/-! ### Shortcuts -/

theorem nothingText_ne_impossibleText : nothingText ≠ impossibleText := by decide

theorem impliesAtOnce_iff : a.impliesAtOnce b = true ↔ a = b ∨ a = impossible ∨ b = nothing := by
  have himpossible : a.isImpossible = true ↔ a = impossible := by
    cases a <;> simp [isImpossible, impossible]
  have hnothing : b.isNothing = true ↔ b = nothing := by
    cases b <;> simp [isNothing, nothing]
  rw [impliesAtOnce, Bool.or_eq_true, Bool.or_eq_true, decide_eq_true_eq, himpossible, hnothing,
    or_assoc]

theorem implies_refl (a : Requirement) : a.implies leafImplies a = true :=
  implies_of_atOnce leafImplies (impliesAtOnce_iff.2 (Or.inl rfl))

theorem impossible_implies (b : Requirement) : impossible.implies leafImplies b = true :=
  implies_of_atOnce leafImplies (impliesAtOnce_iff.2 (Or.inr (Or.inl rfl)))

theorem implies_nothing (a : Requirement) : a.implies leafImplies nothing = true :=
  implies_of_atOnce leafImplies (impliesAtOnce_iff.2 (Or.inr (Or.inr rfl)))

/-! ### Conjunctions on the right -/

theorem implies_all_of_forall (h : ∀ t ∈ ts, a.implies leafImplies t = true) :
    a.implies leafImplies (.all ts) = true := by
  cases hnow : a.impliesAtOnce (.all ts) with
  | true => exact implies_of_atOnce leafImplies hnow
  | false => rwa [implies_all leafImplies hnow, List.all_eq_true]

/-- What implies a conjunction implies an operand, provided that the conjunction itself does. -/
private theorem implies_operand (hself : (all ts).implies leafImplies t = true)
    (h : a.implies leafImplies (.all ts) = true) (ht : t ∈ ts) :
    a.implies leafImplies t = true := by
  cases hnow : a.impliesAtOnce (.all ts) with
  | false =>
    rw [implies_all leafImplies hnow, List.all_eq_true] at h
    exact h t ht
  | true =>
    rcases impliesAtOnce_iff.1 hnow with rfl | rfl | hnothing
    · exact hself
    · exact impossible_implies t
    · cases hnothing

private theorem impliesAtOnce_all_any : impliesAtOnce (.all ss) (.any ts) = false :=
  Bool.eq_false_iff.2 fun h => by
    rcases impliesAtOnce_iff.1 h with h | h | h <;> cases h

/-- A conjunction implies whatever one of its operands implies. -/
theorem all_implies_of_mem (hs : s ∈ ss) (h : s.implies leafImplies b = true) :
    (all ss).implies leafImplies b = true := by
  induction b using joinInduction generalizing ss s with
  | leaf y =>
    cases hnow : impliesAtOnce (.all ss) (.leaf y) with
    | true => exact implies_of_atOnce leafImplies hnow
    | false =>
      rw [all_implies_leaf leafImplies hnow]
      exact List.any_eq_true.2 ⟨s, hs, h⟩
  | node connective ts ih =>
    cases connective with
    | and =>
      exact implies_all_of_forall fun t ht =>
        ih t ht hs (implies_operand (ih t ht ht (implies_refl t)) h ht)
    | or =>
      rw [join, all_implies_any leafImplies impliesAtOnce_all_any, Bool.or_eq_true]
      exact Or.inl (List.any_eq_true.2 ⟨s, hs, h⟩)

/-- A conjunction is implied exactly when each of its operands is. -/
theorem implies_all_iff :
    a.implies leafImplies (.all ts) = true ↔ ∀ t ∈ ts, a.implies leafImplies t = true :=
  ⟨fun h t ht => implies_operand (all_implies_of_mem ht (implies_refl t)) h ht,
    implies_all_of_forall⟩

/-! ### Disjunctions on the left -/

section NotAll

variable (hb : ∀ ts, b ≠ .all ts)

include hb

private theorem any_implies_of_forall_of_ne (h : ∀ s ∈ ss, s.implies leafImplies b = true) :
    (any ss).implies leafImplies b = true := by
  cases hnow : impliesAtOnce (.any ss) b with
  | true => exact implies_of_atOnce leafImplies hnow
  | false => rwa [any_implies leafImplies hnow hb, List.all_eq_true]

private theorem operand_implies_of_ne (hself : s.implies leafImplies (.any ss) = true)
    (h : (any ss).implies leafImplies b = true) (hs : s ∈ ss) :
    s.implies leafImplies b = true := by
  cases hnow : impliesAtOnce (.any ss) b with
  | false =>
    rw [any_implies leafImplies hnow hb, List.all_eq_true] at h
    exact h s hs
  | true =>
    rcases impliesAtOnce_iff.1 hnow with rfl | himpossible | rfl
    · exact hself
    · cases himpossible
    · exact implies_nothing s

end NotAll

theorem any_implies_of_forall (h : ∀ s ∈ ss, s.implies leafImplies b = true) :
    (any ss).implies leafImplies b = true := by
  induction b using joinInduction with
  | leaf y => exact any_implies_of_forall_of_ne nofun h
  | node connective ts ih =>
    cases connective with
    | and =>
      exact implies_all_of_forall fun t ht => ih t ht fun s hs => implies_all_iff.1 (h s hs) t ht
    | or => exact any_implies_of_forall_of_ne nofun h

/-- An operand implies what its disjunction implies, provided that it implies the disjunction
itself. -/
private theorem operand_implies (hself : s.implies leafImplies (.any ss) = true)
    (h : (any ss).implies leafImplies b = true) (hs : s ∈ ss) :
    s.implies leafImplies b = true := by
  induction b using joinInduction with
  | leaf y => exact operand_implies_of_ne nofun hself h hs
  | node connective ts ih =>
    cases connective with
    | and => exact implies_all_of_forall fun t ht => ih t ht (implies_all_iff.1 h t ht)
    | or => exact operand_implies_of_ne nofun hself h hs

/-- A disjunction is implied by whatever implies one of its operands. -/
theorem implies_any_of_mem (ht : t ∈ ts) (h : a.implies leafImplies t = true) :
    a.implies leafImplies (.any ts) = true := by
  induction a using joinInduction generalizing ts t with
  | leaf x =>
    cases hnow : impliesAtOnce (.leaf x) (.any ts) with
    | true => exact implies_of_atOnce leafImplies hnow
    | false =>
      rw [leaf_implies_any leafImplies hnow]
      exact List.any_eq_true.2 ⟨t, ht, h⟩
  | node connective ss ih =>
    cases connective with
    | and =>
      rw [join, all_implies_any leafImplies impliesAtOnce_all_any, Bool.or_eq_true]
      exact Or.inr (List.any_eq_true.2 ⟨t, ht, h⟩)
    | or =>
      exact any_implies_of_forall fun s hs =>
        ih s hs ht (operand_implies (ih s hs hs (implies_refl s)) h hs)

/-- A disjunction implies exactly what all of its operands imply. -/
theorem any_implies_iff :
    (any ss).implies leafImplies b = true ↔ ∀ s ∈ ss, s.implies leafImplies b = true :=
  ⟨fun h s hs => operand_implies (implies_any_of_mem hs (implies_refl s)) h hs,
    any_implies_of_forall⟩

/-! ### Choices -/

/-- A conjunction that implies a leaf does so by one of its operands. -/
theorem of_all_implies_leaf (h : (all ss).implies leafImplies (.leaf y) = true) :
    y = nothingText ∨ ∃ s ∈ ss, s.implies leafImplies (.leaf y) = true := by
  cases hnow : impliesAtOnce (.all ss) (.leaf y) with
  | false =>
    rw [all_implies_leaf leafImplies hnow] at h
    exact Or.inr (List.any_eq_true.1 h)
  | true =>
    rcases impliesAtOnce_iff.1 hnow with heq | heq | heq <;> cases heq
    exact Or.inl rfl

/-- A conjunction that implies a disjunction does so by an operand on either side. -/
theorem of_all_implies_any (h : (all ss).implies leafImplies (.any ts) = true) :
    (∃ s ∈ ss, s.implies leafImplies (.any ts) = true) ∨
      ∃ t ∈ ts, (all ss).implies leafImplies t = true := by
  rw [all_implies_any leafImplies impliesAtOnce_all_any, Bool.or_eq_true] at h
  exact h.imp List.any_eq_true.1 List.any_eq_true.1

/-- A leaf that implies a disjunction implies one of its operands. -/
theorem of_leaf_implies_any (h : (leaf x).implies leafImplies (.any ts) = true) :
    x = impossibleText ∨ ∃ t ∈ ts, (leaf x).implies leafImplies t = true := by
  cases hnow : impliesAtOnce (.leaf x) (.any ts) with
  | false =>
    rw [leaf_implies_any leafImplies hnow] at h
    exact Or.inr (List.any_eq_true.1 h)
  | true =>
    rcases impliesAtOnce_iff.1 hnow with heq | heq | heq <;> cases heq
    exact Or.inl rfl

/-! ### Cutting out the tree in the middle -/

section Transitivity

variable (hleaf : leafImplies.Ordered)

include hleaf

/-- Leaves are compared by the relation on leaves, the shortcuts included. -/
theorem leaf_implies_leaf_iff :
    (leaf x).implies leafImplies (.leaf y) = true ↔ leafImplies x y = true := by
  cases hnow : impliesAtOnce (.leaf x) (.leaf y) with
  | false => rw [leaf_implies_leaf leafImplies hnow]
  | true =>
    refine iff_of_true (implies_of_atOnce leafImplies hnow) ?_
    rcases impliesAtOnce_iff.1 hnow with heq | heq | heq <;> cases heq
    · exact hleaf.refl x
    · exact hleaf.impossible_implies y
    · exact hleaf.implies_nothing x

/-- What the trivial leaf implies is implied by every tree. -/
private theorem implies_of_nothing_implies (h : nothing.implies leafImplies c = true) :
    a.implies leafImplies c = true := by
  induction c using joinInduction with
  | leaf z =>
    obtain rfl : z = nothingText := hleaf.eq_nothing ((leaf_implies_leaf_iff hleaf).1 h)
    exact implies_nothing a
  | node connective ts ih =>
    cases connective with
    | and => exact implies_all_of_forall fun t ht => ih t ht (implies_all_iff.1 h t ht)
    | or =>
      rcases of_leaf_implies_any h with heq | ⟨t, ht, h⟩
      · exact absurd heq nothingText_ne_impossibleText
      · exact implies_any_of_mem ht (ih t ht h)

/-- A leaf implies whatever a weaker leaf implies. -/
private theorem leaf_implies_of_leaf (hxy : leafImplies x y = true)
    (h : (leaf y).implies leafImplies c = true) : (leaf x).implies leafImplies c = true := by
  induction c using joinInduction with
  | leaf z =>
    rw [leaf_implies_leaf_iff hleaf] at h ⊢
    exact hleaf.trans hxy h
  | node connective ts ih =>
    cases connective with
    | and => exact implies_all_of_forall fun t ht => ih t ht (implies_all_iff.1 h t ht)
    | or =>
      rcases of_leaf_implies_any h with rfl | ⟨t, ht, h⟩
      · obtain rfl : x = impossibleText := hleaf.eq_impossible hxy
        exact impossible_implies _
      · exact implies_any_of_mem ht (ih t ht h)

/-- A leaf is cut out: the tree that implies it does so by leaves that are no weaker. -/
private theorem implies_trans_leaf (hab : a.implies leafImplies (.leaf y) = true)
    (hbc : (leaf y).implies leafImplies c = true) : a.implies leafImplies c = true := by
  induction a using joinInduction with
  | leaf x => exact leaf_implies_of_leaf hleaf ((leaf_implies_leaf_iff hleaf).1 hab) hbc
  | node connective ss ih =>
    cases connective with
    | and =>
      rcases of_all_implies_leaf hab with rfl | ⟨s, hs, hab⟩
      · exact implies_of_nothing_implies hleaf hbc
      · exact all_implies_of_mem hs (ih s hs hab)
    | or => exact any_implies_of_forall fun s hs => ih s hs (any_implies_iff.1 hab s hs)

omit hleaf in
/-- A conjunction is cut out, provided that its operands are: the tree that it implies follows from
one of them, or has an operand that it implies. -/
private theorem implies_trans_all {us : List Requirement}
    (hcut : ∀ u ∈ us, ∀ c, a.implies leafImplies u = true → u.implies leafImplies c = true →
      a.implies leafImplies c = true)
    (hab : a.implies leafImplies (.all us) = true) (hbc : (all us).implies leafImplies c = true) :
    a.implies leafImplies c = true := by
  have hoperand := implies_all_iff.1 hab
  induction c using joinInduction with
  | leaf z =>
    rcases of_all_implies_leaf hbc with rfl | ⟨u, hu, hbc⟩
    · exact implies_nothing a
    · exact hcut u hu _ (hoperand u hu) hbc
  | node connective ts ih =>
    cases connective with
    | and => exact implies_all_of_forall fun t ht => ih t ht (implies_all_iff.1 hbc t ht)
    | or =>
      rcases of_all_implies_any hbc with ⟨u, hu, hbc⟩ | ⟨t, ht, hbc⟩
      · exact hcut u hu _ (hoperand u hu) hbc
      · exact implies_any_of_mem ht (ih t ht hbc)

omit hleaf in
/-- A disjunction is cut out, provided that its operands are: the tree that implies it implies one
of them, or has an operand that implies it. -/
private theorem implies_trans_any {us : List Requirement}
    (hcut : ∀ u ∈ us, ∀ a : Requirement, a.implies leafImplies u = true →
      u.implies leafImplies c = true → a.implies leafImplies c = true)
    (hab : a.implies leafImplies (.any us) = true) (hbc : (any us).implies leafImplies c = true) :
    a.implies leafImplies c = true := by
  have hoperand := any_implies_iff.1 hbc
  induction a using joinInduction with
  | leaf x =>
    rcases of_leaf_implies_any hab with rfl | ⟨u, hu, hab⟩
    · exact impossible_implies c
    · exact hcut u hu _ hab (hoperand u hu)
  | node connective ss ih =>
    cases connective with
    | and =>
      rcases of_all_implies_any hab with ⟨s, hs, hab⟩ | ⟨u, hu, hab⟩
      · exact all_implies_of_mem hs (ih s hs hab)
      · exact hcut u hu _ hab (hoperand u hu)
    | or => exact any_implies_of_forall fun s hs => ih s hs (any_implies_iff.1 hab s hs)

/-- Implication is transitive when the leaves are in a preorder. -/
theorem implies_trans (hab : a.implies leafImplies b = true)
    (hbc : b.implies leafImplies c = true) : a.implies leafImplies c = true := by
  induction b using joinInduction generalizing a c with
  | leaf y => exact implies_trans_leaf hleaf hab hbc
  | node connective us ih =>
    cases connective with
    | and => exact implies_trans_all (fun u hu c hau huc => ih u hu hau huc) hab hbc
    | or => exact implies_trans_any (fun u hu a hau huc => ih u hu hau huc) hab hbc

end Transitivity

end Requirement

/-! ### Comparing item counts -/

namespace ItemRequirement

/-- A leaf implies another one by the terminals or by a count of the same item. -/
theorem implies_iff {a b : String} :
    implies a b = true ↔ a = b ∨ a = impossibleText ∨ b = nothingText ∨
      a ≠ nothingText ∧ b ≠ impossibleText ∧
        (parse a).item = (parse b).item ∧ (parse b).count ≤ (parse a).count := by
  rw [implies]
  split
  case isTrue hnow => simpa [or_assoc] using Or.inl hnow
  case isFalse hlater =>
    simp only [Bool.or_eq_true, decide_eq_true_eq, not_or] at hlater
    simp only [hlater, false_or]
    split
    case isTrue hterminal =>
      simp only [Bool.or_eq_true, decide_eq_true_eq] at hterminal
      exact iff_of_false Bool.false_ne_true fun h => hterminal.elim h.1 h.2.1
    case isFalse hterminal =>
      simp only [Bool.or_eq_true, decide_eq_true_eq, not_or] at hterminal
      simp [hterminal]

/-- Comparing item counts puts the leaves in a preorder that the terminals alone bound. -/
theorem implies_ordered : LeafImplication.Ordered implies where
  refl a := implies_iff.2 (Or.inl rfl)
  trans := by
    intro a b c hab hbc
    rcases implies_iff.1 hab with rfl | rfl | rfl | ⟨ha, hb, hitem, hcount⟩
    · exact hbc
    · exact implies_iff.2 (Or.inr (Or.inl rfl))
    · rcases implies_iff.1 hbc with rfl | heq | rfl | ⟨hne, -⟩
      · exact hab
      · exact absurd heq nothingText_ne_impossibleText
      · exact hab
      · exact absurd rfl hne
    · rcases implies_iff.1 hbc with rfl | rfl | rfl | ⟨-, hc, hitem', hcount'⟩
      · exact hab
      · exact absurd rfl hb
      · exact implies_iff.2 (Or.inr (Or.inr (Or.inl rfl)))
      · exact implies_iff.2 (Or.inr (Or.inr (Or.inr
          ⟨ha, hc, hitem.trans hitem', UInt32.le_trans hcount' hcount⟩)))
  impossible_implies a := implies_iff.2 (Or.inr (Or.inl rfl))
  implies_nothing a := implies_iff.2 (Or.inr (Or.inr (Or.inl rfl)))
  eq_impossible := by
    intro a h
    rcases implies_iff.1 h with heq | heq | heq | ⟨-, hne, -⟩
    · exact heq
    · exact heq
    · exact absurd heq.symm nothingText_ne_impossibleText
    · exact absurd rfl hne
  eq_nothing := by
    intro a h
    rcases implies_iff.1 h with heq | heq | heq | ⟨hne, -⟩
    · exact heq.symm
    · exact absurd heq nothingText_ne_impossibleText
    · exact heq
    · exact absurd rfl hne

end ItemRequirement

namespace Requirement

/-- Comparing item counts, implication between trees is reflexive and transitive. The impossible
leaf and the empty disjunction imply every tree, and every tree implies the trivial leaf and the
empty conjunction. -/
theorem implies_bounded_preorder :
    (∀ a : Requirement, a.implies ItemRequirement.implies a = true) ∧
    (∀ a b c : Requirement, a.implies ItemRequirement.implies b = true →
      b.implies ItemRequirement.implies c = true → a.implies ItemRequirement.implies c = true) ∧
    (∀ a : Requirement, impossible.implies ItemRequirement.implies a = true ∧
      (any []).implies ItemRequirement.implies a = true) ∧
    ∀ a : Requirement, a.implies ItemRequirement.implies nothing = true ∧
      a.implies ItemRequirement.implies (.all []) = true :=
  ⟨implies_refl, fun _ _ _ hab hbc => implies_trans ItemRequirement.implies_ordered hab hbc,
    fun a => ⟨impossible_implies a, any_implies_of_forall nofun⟩,
    fun a => ⟨implies_nothing a, implies_all_of_forall nofun⟩⟩

/-- Three keys and a bow imply two keys or a boat, and these imply a key or a boat. -/
theorem implies_bounded_preorder_keys :
    let keysAndBow := all [.leaf "Small Key x3", .leaf "Bow"]
    let keysOrBoat := any [.leaf "Small Key x2", .leaf "Boat"]
    let keyOrBoat := any [.leaf "Boat", .leaf "Small Key"]
    keysAndBow.implies ItemRequirement.implies keysOrBoat = true ∧
    keysOrBoat.implies ItemRequirement.implies keyOrBoat = true ∧
    keysAndBow.implies ItemRequirement.implies keyOrBoat = true := by
  intro keysAndBow keysOrBoat keyOrBoat
  have hfirst : keysAndBow.implies ItemRequirement.implies keysOrBoat = true := by
    decide +kernel
  have hsecond : keysOrBoat.implies ItemRequirement.implies keyOrBoat = true := by
    decide +kernel
  exact ⟨hfirst, hsecond, implies_bounded_preorder.2.1 _ _ _ hfirst hsecond⟩

end Requirement

end SeedLogic
