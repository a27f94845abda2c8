import SeedLogic.Proofs.Requirement.ImplicationOrder
import SeedLogic.Requirement.Simplify

/-!
# Simplified trees are equivalent to the original ones

Two trees are equivalent when each implies the other. Implication only looks at the structure of
trees, so that equal meaning does not make them equivalent. Still, every tree is equivalent to its
simplified tree, and a tree may be replaced by the other one on either side of an implication.

Absorption among the operands of a node is implication in the direction of the connective. In this
order the node is the greatest lower bound of its operands: what absorbs the node is what absorbs
all of them. The steps of simplification change the operands, but not what absorbs all of them.

## Main definitions

* `Requirement.Equivalent` : each tree implies the other one.

## Main results

* `Requirement.absorbs_combine_iff` : combining operands keeps what absorbs all of them.
* `Requirement.equivalent_simplify` : a tree is equivalent to its simplified tree.
* `Requirement.implies_simplify_iff` : simplifying both sides keeps whether one implies the other.
-/

namespace SeedLogic.Requirement

variable {leafImplies : LeafImplication} {connective : Connective} {a b r : Requirement}
  {rs : List Requirement}

/-- Each of the trees implies the other one. -/
def Equivalent (leafImplies : LeafImplication) (a b : Requirement) : Prop :=
  a.implies leafImplies b = true ∧ b.implies leafImplies a = true

/-! ### The order of a connective -/

/-- What absorbs a node is what absorbs all of its operands. -/
theorem absorbs_join_iff :
    absorbs leafImplies connective a (join connective rs) = true ↔
      ∀ r ∈ rs, absorbs leafImplies connective a r = true := by
  cases connective with
  | and => exact implies_all_iff
  | or => exact any_implies_iff

/-- Everything absorbs the terminal that may be left out. -/
theorem absorbs_identity :
    absorbs leafImplies connective a (.leaf connective.identityText) = true := by
  cases connective with
  | and => exact implies_nothing a
  | or => exact impossible_implies a

/-- The terminal that decides a node absorbs everything. -/
theorem annihilator_absorbs :
    absorbs leafImplies connective (.leaf connective.annihilatorText) a = true := by
  cases connective with
  | and => exact impossible_implies a
  | or => exact implies_nothing a

/-- Trees that absorb each other are equivalent. -/
theorem equivalent_iff_absorbs (connective : Connective) :
    Equivalent leafImplies a b ↔ absorbs leafImplies connective a b = true ∧
      absorbs leafImplies connective b a = true := by
  cases connective with
  | and => exact Iff.rfl
  | or => exact and_comm

theorem absorbs_refl (a : Requirement) : absorbs leafImplies connective a a = true := by
  cases connective <;> exact implies_refl a

theorem absorbs_trans (hleaf : leafImplies.Ordered) {c : Requirement}
    (hab : absorbs leafImplies connective a b = true)
    (hbc : absorbs leafImplies connective b c = true) :
    absorbs leafImplies connective a c = true := by
  cases connective with
  | and => exact implies_trans hleaf hab hbc
  | or => exact implies_trans hleaf hbc hab

/-! ### Splicing and terminals -/

theorem absorbs_splice_iff :
    (∀ t ∈ splice connective r, absorbs leafImplies connective a t = true) ↔
      absorbs leafImplies connective a r = true := by
  by_cases hjoin : ∃ operands, r = join connective operands
  · obtain ⟨operands, rfl⟩ := hjoin
    rw [splice_join, absorbs_join_iff]
  · rw [splice_eq_singleton fun operands heq => hjoin ⟨operands, heq⟩]
    simp

/-- Flattening fails only when the annihilator is among the operands. -/
theorem annihilator_mem_of_flatten_eq_none (h : flatten connective rs = none) :
    .leaf connective.annihilatorText ∈ rs := by
  induction rs with
  | nil => simp [flatten] at h
  | cons r rs ih =>
    rw [flatten] at h
    split at h
    case isTrue hr => exact hr ▸ List.mem_cons_self
    case isFalse =>
      split at h
      case isTrue => exact List.mem_cons_of_mem r (ih h)
      case isFalse => exact List.mem_cons_of_mem r (ih (by simpa using h))

/-- Flattening keeps what absorbs all operands. -/
theorem absorbs_flatten_iff {flat : List Requirement} (h : flatten connective rs = some flat) :
    (∀ t ∈ flat, absorbs leafImplies connective a t = true) ↔
      ∀ r ∈ rs, absorbs leafImplies connective a r = true := by
  induction rs generalizing flat with
  | nil =>
    obtain rfl : [] = flat := by simpa [flatten] using h
    exact Iff.rfl
  | cons r rs ih =>
    rw [flatten] at h
    rw [List.forall_mem_cons]
    split at h
    case isTrue => exact absurd h (by simp)
    case isFalse =>
      split at h
      case isTrue hr => rw [ih h, hr, and_iff_right absorbs_identity]
      case isFalse =>
        obtain ⟨rest, hrest, rfl⟩ := Option.map_eq_some_iff.1 h
        rw [List.forall_mem_append, absorbs_splice_iff, ih hrest]

/-! ### Absorption -/

section Absorption

variable (hleaf : leafImplies.Ordered)

include hleaf

/-- Offering an operand keeps what absorbs all operands. -/
theorem absorbs_offer_iff {kept : List Requirement} {candidate : Requirement} :
    (∀ t ∈ offer leafImplies connective kept candidate,
      absorbs leafImplies connective a t = true) ↔
      (∀ t ∈ kept, absorbs leafImplies connective a t = true) ∧
        absorbs leafImplies connective a candidate = true := by
  rw [offer]
  split
  case isTrue hskip =>
    obtain ⟨keeper, hmem, habsorbs⟩ := List.any_eq_true.1 hskip
    exact (and_iff_left_of_imp fun h => absorbs_trans hleaf (h keeper hmem) habsorbs).symm
  case isFalse =>
    rw [List.forall_mem_append, List.forall_mem_singleton]
    refine and_congr_left fun hcandidate => ⟨fun h t ht => ?_, fun h t ht => ?_⟩
    · by_cases habsorbs : absorbs leafImplies connective candidate t = true
      · exact absorbs_trans hleaf hcandidate habsorbs
      · exact h t (List.mem_filter.2 ⟨ht, by simpa using habsorbs⟩)
    · exact h t (List.mem_filter.1 ht).1

private theorem absorbs_foldl_offer_iff {kept candidates : List Requirement} :
    (∀ t ∈ candidates.foldl (offer leafImplies connective) kept,
      absorbs leafImplies connective a t = true) ↔
      (∀ t ∈ kept, absorbs leafImplies connective a t = true) ∧
        ∀ t ∈ candidates, absorbs leafImplies connective a t = true := by
  induction candidates generalizing kept with
  | nil => simp
  | cons r rs ih =>
    rw [List.foldl_cons, ih, absorbs_offer_iff hleaf, List.forall_mem_cons, and_assoc]

end Absorption

/-! ### Nodes and trees -/

private theorem absorbs_collapse_iff :
    absorbs leafImplies connective a (collapse connective rs) = true ↔
      ∀ r ∈ rs, absorbs leafImplies connective a r = true := by
  match rs with
  | [] => exact iff_of_true absorbs_identity nofun
  | [r] =>
    rw [List.forall_mem_singleton]
    exact Iff.rfl
  | r :: t :: ts => exact absorbs_join_iff

section Ordered

variable (hleaf : leafImplies.Ordered)

include hleaf

/-- What absorbs the combined operands is what absorbs all of them. -/
theorem absorbs_combine_iff :
    absorbs leafImplies connective a (combine leafImplies connective rs) = true ↔
      ∀ r ∈ rs, absorbs leafImplies connective a r = true := by
  rw [combine]
  split
  case h_1 hflat =>
    refine ⟨fun h r _ => absorbs_trans hleaf h annihilator_absorbs, fun h => ?_⟩
    exact h _ (annihilator_mem_of_flatten_eq_none hflat)
  case h_2 flat hflat =>
    rw [absorbs_collapse_iff, absorbs_foldl_offer_iff hleaf, absorbs_flatten_iff hflat]
    exact and_iff_right nofun

/-- Combined operands are equivalent to the node over operands that are equivalent to them. -/
theorem equivalent_combine {f : Requirement → Requirement}
    (h : ∀ r ∈ rs, Equivalent leafImplies r (f r)) :
    Equivalent leafImplies (join connective rs) (combine leafImplies connective (rs.map f)) := by
  have habsorbs (a : Requirement) :
      absorbs leafImplies connective a (combine leafImplies connective (rs.map f)) = true ↔
        absorbs leafImplies connective a (join connective rs) = true := by
    rw [absorbs_combine_iff hleaf, absorbs_join_iff, List.forall_mem_map]
    refine forall₂_congr fun r hr => ?_
    obtain ⟨hto, hfrom⟩ := (equivalent_iff_absorbs connective).1 (h r hr)
    exact ⟨fun ha => absorbs_trans hleaf ha hfrom, fun ha => absorbs_trans hleaf ha hto⟩
  -- Each of the two absorbs itself, hence also the other one.
  exact (equivalent_iff_absorbs connective).2
    ⟨(habsorbs _).2 (absorbs_refl _), (habsorbs _).1 (absorbs_refl _)⟩

/-- A tree is equivalent to its simplified tree. -/
theorem equivalent_simplify (r : Requirement) :
    Equivalent leafImplies r (r.simplify leafImplies) := by
  induction r using joinInduction with
  | leaf text => exact ⟨implies_refl _, implies_refl _⟩
  | node connective operands ih =>
    rw [simplify_join]
    exact equivalent_combine hleaf ih

/-- Equivalent trees may be replaced by each other on both sides of an implication. -/
theorem implies_congr {a' b' : Requirement} (ha : Equivalent leafImplies a a')
    (hb : Equivalent leafImplies b b') :
    a.implies leafImplies b = true ↔ a'.implies leafImplies b' = true :=
  ⟨fun h => implies_trans hleaf ha.2 (implies_trans hleaf h hb.1),
    fun h => implies_trans hleaf ha.1 (implies_trans hleaf h hb.2)⟩

end Ordered

/-- Comparing item counts, a tree implies another one exactly when the simplified trees imply each
other in the same way. -/
theorem implies_simplify_iff (a b : Requirement) :
    a.implies ItemRequirement.implies b = true ↔
      (a.simplify ItemRequirement.implies).implies ItemRequirement.implies
        (b.simplify ItemRequirement.implies) = true :=
  have hleaf := ItemRequirement.implies_ordered
  implies_congr hleaf (equivalent_simplify hleaf a) (equivalent_simplify hleaf b)

end SeedLogic.Requirement
