import Mathlib.Data.List.Flatten
import SeedLogic.Proofs.Requirement.Substitution
import SeedLogic.Requirement.Simplify

/-!
# Item requirements and size of simplified trees

Simplification only leaves out operands, splices operands in where their node stood, and puts in
terminals. So the item requirements of a simplified tree stand in the original tree as well, in the
same order and no more often, and the simplified tree has no more nodes than the original one.
Nothing is assumed about the relation on leaves.

## Main results

* `Requirement.offer_sublist` : the absorption loop keeps the order of operands.
* `Requirement.items_simplify_sublist` : the item requirements of a simplified tree.
* `Requirement.mem_leaves_of_mem_simplify` : the leaves of a simplified tree.
* `Requirement.nodeCount_simplify_le` : the size of a simplified tree.
* `Requirement.simplify_adds_nothing` : item requirements and size together.
-/

namespace SeedLogic.Requirement

variable {leafImplies : LeafImplication} {connective : Connective}

/-- The item requirements of a node are those of its operands. -/
theorem items_join (operands : List Requirement) :
    (join connective operands).items = operands.flatMap items := by
  rw [items, leaves_join, List.filter_flatMap]
  rfl

/-- A terminal is no item requirement. -/
theorem items_leaf_of_isTerminal {text : String} (h : isTerminal text = true) :
    (leaf text).items = [] := by
  rw [items, leaves_leaf, List.filter_cons_of_neg (by simp [h]), List.filter_nil]

private theorem items_identity : (leaf connective.identityText).items = [] :=
  items_leaf_of_isTerminal (by cases connective <;> rfl)

private theorem items_annihilator : (leaf connective.annihilatorText).items = [] :=
  items_leaf_of_isTerminal (by cases connective <;> rfl)

/-- Splicing keeps the item requirements. -/
theorem flatMap_items_splice (r : Requirement) :
    (splice connective r).flatMap items = r.items := by
  by_cases h : ∃ operands, r = join connective operands
  · obtain ⟨operands, rfl⟩ := h
    rw [splice_join, items_join]
  · rw [splice_eq_singleton fun operands heq => h ⟨operands, heq⟩, List.flatMap_singleton]

/-- Folding terminals and splicing keep the item requirements of the operands. -/
theorem flatMap_items_flatten {rs flat : List Requirement} (h : flatten connective rs = some flat) :
    flat.flatMap items = rs.flatMap items := by
  induction rs generalizing flat with
  | nil =>
    cases h
    rfl
  | cons r rs ih =>
    rw [flatten] at h
    split at h
    next => cases h
    next =>
      split at h
      next hidentity =>
        rw [ih h, List.flatMap_cons, hidentity, items_identity, List.nil_append]
      next =>
        obtain ⟨rest, hrest, rfl⟩ := Option.map_eq_some_iff.1 h
        rw [List.flatMap_append, flatMap_items_splice, ih hrest, List.flatMap_cons]

/-- An operand that is offered stands behind those kept before, if it is kept. -/
theorem offer_sublist (kept : List Requirement) (candidate : Requirement) :
    (offer leafImplies connective kept candidate).Sublist (kept ++ [candidate]) := by
  rw [offer]
  split
  · exact List.sublist_append_left kept [candidate]
  · exact List.filter_sublist.append_right [candidate]

/-- The absorption loop keeps the order of operands. -/
theorem foldl_offer_sublist (kept candidates : List Requirement) :
    (candidates.foldl (offer leafImplies connective) kept).Sublist (kept ++ candidates) := by
  induction candidates generalizing kept with
  | nil => simp
  | cons candidate rest ih =>
    have hstep : (offer leafImplies connective kept candidate ++ rest).Sublist
        (kept ++ [candidate] ++ rest) := (offer_sublist kept candidate).append_right rest
    rw [List.foldl_cons]
    rw [List.append_assoc, List.singleton_append] at hstep
    exact (ih _).trans hstep

/-- The node over the remaining operands has their item requirements. -/
theorem items_collapse (rs : List Requirement) :
    (collapse connective rs).items = rs.flatMap items := by
  match rs with
  | [] => exact items_identity
  | [r] => rw [collapse, List.flatMap_singleton]
  | r :: t :: rest => exact items_join _

/-- Combining operands adds no item requirement. -/
theorem items_combine_sublist (rs : List Requirement) :
    (combine leafImplies connective rs).items.Sublist (rs.flatMap items) := by
  rw [combine]
  cases hflat : flatten connective rs with
  | none =>
    rw [items_annihilator]
    exact List.nil_sublist _
  | some flat =>
    rw [items_collapse, ← flatMap_items_flatten hflat]
    exact (foldl_offer_sublist [] flat).flatMap items

/-- The item requirements of a simplified tree are some of those of the tree, in their order. -/
theorem items_simplify_sublist (r : Requirement) :
    (r.simplify leafImplies).items.Sublist r.items := by
  induction r using joinInduction with
  | leaf text => exact List.Sublist.refl _
  | node connective operands ih =>
    have hoperands : ((operands.map (simplify leafImplies)).flatMap items).Sublist
        (operands.flatMap items) := by
      rw [List.flatMap_map]
      exact List.Sublist.flatMap_right operands ih
    rw [simplify_join, items_join]
    exact (items_combine_sublist _).trans hoperands

/-- A leaf of a simplified tree is a terminal or a leaf of the tree. -/
theorem mem_leaves_of_mem_simplify {r : Requirement} {text : String}
    (h : text ∈ (r.simplify leafImplies).leaves) : isTerminal text = true ∨ text ∈ r.leaves := by
  cases hterminal : isTerminal text with
  | true => exact Or.inl rfl
  | false =>
    have hitem : text ∈ (r.simplify leafImplies).items := List.mem_filter.2 ⟨h, by simp [hterminal]⟩
    exact Or.inr (List.mem_filter.1 ((items_simplify_sublist r).subset hitem)).1

/-! ### Size -/

/-- A node counts in addition to its operands. -/
theorem nodeCount_join (operands : List Requirement) :
    (join connective operands).nodeCount = 1 + nodeCountList operands := by
  cases connective <;> rw [join, nodeCount]

theorem nodeCountList_append (rs ts : List Requirement) :
    nodeCountList (rs ++ ts) = nodeCountList rs + nodeCountList ts := by
  induction rs with
  | nil => rw [List.nil_append, nodeCountList, Nat.zero_add]
  | cons r rs ih => rw [List.cons_append, nodeCountList, nodeCountList, ih, Nat.add_assoc]

/-- Leaving out trees adds no node. -/
theorem nodeCountList_le_of_sublist {rs ts : List Requirement} (h : rs.Sublist ts) :
    nodeCountList rs ≤ nodeCountList ts := by
  induction h with
  | slnil => exact Nat.le_refl _
  | cons r _ ih => exact Nat.le_add_left_of_le ih
  | cons_cons r _ ih => exact Nat.add_le_add_left ih r.nodeCount

/-- Replacing trees by trees that are no larger adds no node. -/
theorem nodeCountList_map_le {f : Requirement → Requirement} {rs : List Requirement}
    (h : ∀ r ∈ rs, (f r).nodeCount ≤ r.nodeCount) :
    nodeCountList (rs.map f) ≤ nodeCountList rs := by
  induction rs with
  | nil => exact Nat.le_refl _
  | cons r rs ih =>
    obtain ⟨hr, hrs⟩ := List.forall_mem_cons.1 h
    exact Nat.add_le_add hr (ih hrs)

/-- Splicing adds no node. -/
theorem nodeCountList_splice_le (r : Requirement) :
    nodeCountList (splice connective r) ≤ r.nodeCount := by
  by_cases h : ∃ operands, r = join connective operands
  · obtain ⟨operands, rfl⟩ := h
    rw [splice_join, nodeCount_join]
    exact Nat.le_add_left _ 1
  · rw [splice_eq_singleton fun operands heq => h ⟨operands, heq⟩]
    exact Nat.le_refl _

/-- Folding terminals and splicing add no node. -/
theorem nodeCountList_flatten_le {rs flat : List Requirement}
    (h : flatten connective rs = some flat) : nodeCountList flat ≤ nodeCountList rs := by
  induction rs generalizing flat with
  | nil =>
    cases h
    exact Nat.le_refl _
  | cons r rs ih =>
    rw [flatten] at h
    split at h
    next => cases h
    next =>
      split at h
      next => exact Nat.le_add_left_of_le (ih h)
      next =>
        obtain ⟨rest, hrest, rfl⟩ := Option.map_eq_some_iff.1 h
        rw [nodeCountList_append]
        exact Nat.add_le_add (nodeCountList_splice_le r) (ih hrest)

/-- The node over the remaining operands is at most one node larger than they are. -/
theorem nodeCount_collapse_le (rs : List Requirement) :
    (collapse connective rs).nodeCount ≤ 1 + nodeCountList rs := by
  match rs with
  | [] => simp [collapse, nodeCount]
  | [r] => simp [collapse, nodeCountList]
  | r :: t :: rest => exact Nat.le_of_eq (nodeCount_join _)

/-- Combining operands adds at most the node that joins them. -/
theorem nodeCount_combine_le (rs : List Requirement) :
    (combine leafImplies connective rs).nodeCount ≤ 1 + nodeCountList rs := by
  rw [combine]
  cases hflat : flatten connective rs with
  | none =>
    rw [nodeCount]
    exact Nat.le_add_right 1 _
  | some flat =>
    calc
      _ ≤ 1 + nodeCountList (flat.foldl (offer leafImplies connective) []) :=
        nodeCount_collapse_le _
      _ ≤ 1 + nodeCountList flat :=
        Nat.add_le_add_left (nodeCountList_le_of_sublist (foldl_offer_sublist [] flat)) 1
      _ ≤ 1 + nodeCountList rs := Nat.add_le_add_left (nodeCountList_flatten_le hflat) 1

/-- A simplified tree has at most as many nodes as the tree. -/
theorem nodeCount_simplify_le (r : Requirement) :
    (r.simplify leafImplies).nodeCount ≤ r.nodeCount := by
  induction r using joinInduction with
  | leaf text => exact Nat.le_refl _
  | node connective operands ih =>
    rw [simplify_join, nodeCount_join]
    exact Nat.le_trans (nodeCount_combine_le _) (Nat.add_le_add_left (nodeCountList_map_le ih) 1)

/-- Whatever the relation on leaves, the item requirements of a simplified tree are some of those of
the tree, in their order, and the simplified tree has at most as many nodes. -/
theorem simplify_adds_nothing (leafImplies : LeafImplication) (r : Requirement) :
    (r.simplify leafImplies).items.Sublist r.items ∧
      (r.simplify leafImplies).nodeCount ≤ r.nodeCount :=
  ⟨items_simplify_sublist r, nodeCount_simplify_le r⟩

end SeedLogic.Requirement
