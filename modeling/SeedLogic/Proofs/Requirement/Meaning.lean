import SeedLogic.Proofs.Requirement.Implication
import SeedLogic.Requirement.Simplify

/-!
# Simplification keeps the meaning

A conjunction is decided by an operand that fails and a disjunction by an operand that holds. Each
step of simplification (splicing, folding terminals, dropping absorbed operands, collapsing) keeps
whether a node is decided, as long as the relation on leaves is sound. The simplified tree
therefore holds for the same leaves as the original one.

## Main results

* `Requirement.decided_offer` : one step of the absorption loop.
* `Requirement.evaluate_simplify` : simplification keeps the meaning.
-/

namespace SeedLogic

/-- The truth value of an operand that decides a node. -/
def Connective.decisive : Connective → Bool
  | .and => false
  | .or => true

/-- Different connectives have different decisive values. -/
theorem Connective.decisive_of_ne {connective other : Connective} (h : other ≠ connective) :
    other.decisive = !connective.decisive := by
  cases connective <;> cases other <;> simp_all [decisive]

namespace Requirement

variable {held : String → Bool} {connective : Connective}

/-- Some operand has the truth value that decides the node. -/
def Decided (held : String → Bool) (connective : Connective) (operands : List Requirement) :
    Prop :=
  ∃ r ∈ operands, r.evaluate held = connective.decisive

/-- A node has the decisive truth value exactly when some operand has it. -/
theorem evaluate_join_iff {operands : List Requirement} :
    (join connective operands).evaluate held = connective.decisive ↔
      Decided held connective operands := by
  cases connective with
  | and => simp [join, Connective.decisive, Decided, evaluate_all]
  | or => simp [join, Connective.decisive, Decided, evaluate_any]

/-- A node has the other truth value exactly when all operands have it. -/
theorem evaluate_join_eq_not_iff {operands : List Requirement} :
    (join connective operands).evaluate held = (!connective.decisive) ↔
      ∀ r ∈ operands, r.evaluate held = !connective.decisive := by
  simp only [Bool.eq_not, ne_eq, evaluate_join_iff, Decided, not_exists, not_and]

private theorem eq_of_decisive_iff (connective : Connective) {x y : Bool}
    (h : x = connective.decisive ↔ y = connective.decisive) : x = y := by
  cases connective <;> cases x <;> cases y <;> simp_all [Connective.decisive]

@[simp]
private theorem decided_nil : ¬Decided held connective [] := by
  simp [Decided]

private theorem decided_singleton {r : Requirement} :
    Decided held connective [r] ↔ r.evaluate held = connective.decisive := by
  simp [Decided]

private theorem decided_cons {r : Requirement} {rs : List Requirement} :
    Decided held connective (r :: rs) ↔
      r.evaluate held = connective.decisive ∨ Decided held connective rs := by
  simp [Decided]

private theorem decided_append {rs ts : List Requirement} :
    Decided held connective (rs ++ ts) ↔
      Decided held connective rs ∨ Decided held connective ts := by
  simp only [Decided, List.mem_append, or_and_right, exists_or]

/-! ### Splicing and terminals -/

/-- The terminal that decides a node has the decisive truth value. -/
theorem evaluate_annihilator :
    (leaf connective.annihilatorText).evaluate held = connective.decisive := by
  cases connective <;>
    simp [evaluate_leaf, Connective.annihilatorText, Connective.decisive, impossibleText,
      nothingText]

/-- The terminal that may be left out has the other truth value. -/
theorem evaluate_identity :
    (leaf connective.identityText).evaluate held = !connective.decisive := by
  cases connective <;>
    simp [evaluate_leaf, Connective.identityText, Connective.decisive, impossibleText,
      nothingText]

private theorem decided_splice {r : Requirement} :
    Decided held connective (splice connective r) ↔ r.evaluate held = connective.decisive := by
  by_cases h : ∃ operands, r = join connective operands
  · obtain ⟨operands, rfl⟩ := h
    rw [splice_join, evaluate_join_iff]
  · rw [splice_eq_singleton fun operands heq => h ⟨operands, heq⟩, decided_singleton]

/-- Flattening fails only when an operand decides the node. -/
theorem decided_of_flatten_eq_none {rs : List Requirement}
    (h : flatten connective rs = none) : Decided held connective rs := by
  induction rs with
  | nil => simp [flatten] at h
  | cons r rs ih =>
    rw [flatten] at h
    rw [decided_cons]
    split at h
    case isTrue hr => exact Or.inl (hr ▸ evaluate_annihilator)
    case isFalse =>
      split at h
      case isTrue => exact Or.inr (ih h)
      case isFalse => exact Or.inr (ih (by simpa using h))

/-- The operands that flattening leaves decide the node exactly when the original ones do. -/
theorem decided_flatten {rs flat : List Requirement} (h : flatten connective rs = some flat) :
    Decided held connective flat ↔ Decided held connective rs := by
  induction rs generalizing flat with
  | nil =>
    obtain rfl : [] = flat := by simpa [flatten] using h
    exact Iff.rfl
  | cons r rs ih =>
    rw [flatten] at h
    rw [decided_cons]
    split at h
    case isTrue => exact absurd h (by simp)
    case isFalse =>
      split at h
      case isTrue hr =>
        have hneutral : r.evaluate held ≠ connective.decisive := by
          simp [hr, evaluate_identity]
        rw [ih h, or_iff_right hneutral]
      case isFalse =>
        obtain ⟨rest, hrest, rfl⟩ := Option.map_eq_some_iff.1 h
        rw [decided_append, decided_splice, ih hrest]

/-! ### Absorption -/

section Absorption

variable {leafImplies : LeafImplication} (hsound : leafImplies.Sound held)

include hsound

/-- When an absorbed operand decides the node, so does the operand that absorbs it. -/
theorem evaluate_of_absorbs {keeper dropped : Requirement}
    (h : absorbs leafImplies connective keeper dropped = true)
    (hdropped : dropped.evaluate held = connective.decisive) :
    keeper.evaluate held = connective.decisive := by
  cases connective with
  | and =>
    refine Bool.eq_false_iff.2 fun hkeeper => ?_
    rw [evaluate_of_implies hsound h hkeeper] at hdropped
    exact Bool.noConfusion hdropped
  | or => exact evaluate_of_implies hsound h hdropped

/-- Offering an operand decides a node exactly when the operand or one kept before does. -/
theorem decided_offer {kept : List Requirement} {candidate : Requirement} :
    Decided held connective (offer leafImplies connective kept candidate) ↔
      Decided held connective kept ∨ candidate.evaluate held = connective.decisive := by
  rw [offer]
  split
  case isTrue hskip =>
    obtain ⟨keeper, hmem, habsorbs⟩ := List.any_eq_true.1 hskip
    constructor
    · exact Or.inl
    · rintro (hkept | hcandidate)
      · exact hkept
      · exact ⟨keeper, hmem, evaluate_of_absorbs hsound habsorbs hcandidate⟩
  case isFalse =>
    rw [decided_append, decided_singleton]
    constructor
    · rintro (⟨r, hmem, hr⟩ | hcandidate)
      · exact Or.inl ⟨r, (List.mem_filter.1 hmem).1, hr⟩
      · exact Or.inr hcandidate
    · rintro (⟨r, hmem, hr⟩ | hcandidate)
      · by_cases habsorbs : absorbs leafImplies connective candidate r = true
        · exact Or.inr (evaluate_of_absorbs hsound habsorbs hr)
        · exact Or.inl ⟨r, List.mem_filter.2 ⟨hmem, by simpa using habsorbs⟩, hr⟩
      · exact Or.inr hcandidate

private theorem decided_foldl_offer {kept candidates : List Requirement} :
    Decided held connective (candidates.foldl (offer leafImplies connective) kept) ↔
      Decided held connective kept ∨ Decided held connective candidates := by
  induction candidates generalizing kept with
  | nil => simp
  | cons r rs ih => rw [List.foldl_cons, ih, decided_offer hsound, decided_cons, or_assoc]

end Absorption

/-! ### Nodes and trees -/

private theorem evaluate_collapse {rs : List Requirement} :
    (collapse connective rs).evaluate held = connective.decisive ↔
      Decided held connective rs := by
  fun_cases collapse connective rs with
  | case1 => simp [evaluate_identity]
  | case2 r => exact decided_singleton.symm
  | case3 => exact evaluate_join_iff

/-- Combining operands keeps the meaning of their node. -/
theorem evaluate_combine {leafImplies : LeafImplication} (hsound : leafImplies.Sound held)
    (rs : List Requirement) :
    (combine leafImplies connective rs).evaluate held = (join connective rs).evaluate held := by
  apply eq_of_decisive_iff connective
  rw [evaluate_join_iff, combine]
  split
  case h_1 hflat => exact iff_of_true evaluate_annihilator (decided_of_flatten_eq_none hflat)
  case h_2 flat hflat =>
    rw [evaluate_collapse, decided_foldl_offer hsound, ← decided_flatten hflat]
    exact or_iff_right decided_nil

/-- Simplification over a sound relation keeps the meaning of a tree. -/
theorem evaluate_simplify_of_sound {leafImplies : LeafImplication}
    (hsound : leafImplies.Sound held) (r : Requirement) :
    (r.simplify leafImplies).evaluate held = r.evaluate held := by
  induction r using joinInduction with
  | leaf text => rfl
  | node connective operands ih =>
    rw [simplify_join, evaluate_combine hsound]
    apply eq_of_decisive_iff connective
    rw [evaluate_join_iff, evaluate_join_iff]
    constructor
    · rintro ⟨_, hmem, hdecides⟩
      obtain ⟨r, hr, rfl⟩ := List.mem_map.1 hmem
      exact ⟨r, hr, (ih r hr).symm.trans hdecides⟩
    · rintro ⟨r, hr, hdecides⟩
      exact ⟨_, List.mem_map_of_mem hr, (ih r hr).trans hdecides⟩

/-- Simplification keeps the meaning of every tree for every choice of held leaves, provided that
the relation on leaves is sound for it. Comparing item counts is such a relation whatever the
inventory. -/
theorem evaluate_simplify :
    (∀ (leafImplies : LeafImplication) (held : String → Bool), leafImplies.Sound held →
      ∀ r : Requirement, (r.simplify leafImplies).evaluate held = r.evaluate held) ∧
    ∀ (inventory : String → Nat) (r : Requirement),
      (r.simplify ItemRequirement.implies).evaluate (ItemRequirement.heldIn inventory) =
        r.evaluate (ItemRequirement.heldIn inventory) :=
  ⟨fun _ _ hsound r => evaluate_simplify_of_sound hsound r,
    fun inventory r => evaluate_simplify_of_sound (ItemRequirement.implies_sound inventory) r⟩

/-- Equality of leaves is sound for a single held item, and absorption over it keeps the meaning
of a requirement with a redundant alternative. -/
theorem evaluate_simplify_equal_leaves :
    LeafImplication.Sound (fun a b => a = b) (fun text => text = "Bow") ∧
      (simplify (fun a b => a = b)
        (.any [.all [.leaf "Bow", .leaf "Hookshot"], .leaf "Bow"])).evaluate
          (fun text => text = "Bow") =
        (any [.all [.leaf "Bow", .leaf "Hookshot"], .leaf "Bow"]).evaluate
          (fun text => text = "Bow") := by
  have hsound : LeafImplication.Sound (fun a b => a = b) (fun text => text = "Bow") := by
    intro a b h ha
    exact of_decide_eq_true h ▸ ha
  exact ⟨hsound, evaluate_simplify.1 _ _ hsound _⟩

end Requirement

end SeedLogic
