import Mathlib.Control.Monad.Basic
import SeedLogic.Proofs.Requirement.Implication
import SeedLogic.Proofs.Resolution.Comparison
import SeedLogic.Proofs.Session.Runs

/-!
# Counting the items that settings fix

An item that the settings fix is decided when a tree is built. Had it been kept as a leaf, it would
be decided when the tree is evaluated, and to the same effect: an inventory with all copies that are
held at the start, and with fewer copies of an item than can never be reached, has enough copies
for exactly those requirements that have been decided to be satisfied. So the two trees of a text
have one value, although what is decided early may be anywhere in one of them and is missing in the
other.

## Main definitions

* `PredeterminedItems.Admits` : inventories in accordance with the items that settings fix.
* `Resolution.unfixed` : a state without items that settings fix.

## Main results

* `PredeterminedItems.Admits.classify` : what is decided is what an inventory holds.
* `Resolution.FixesItems.expansion` : one atom with and without items that settings fix.
* `evaluate_eq_of_counting` : trees that two sessions build.
-/

namespace SeedLogic

open Requirement Session

/-! ### Inventories -/

namespace PredeterminedItems

variable {p : PredeterminedItems} {inventory : String → Nat} {text : String}

/-- Whether some count of an item is fixed. -/
def Fixes (p : PredeterminedItems) (item : String) : Prop :=
  item ∈ p.starting.keys ∨ item ∈ p.impossible.keys

instance (item : String) : Decidable (p.Fixes item) :=
  inferInstanceAs (Decidable (item ∈ p.starting.keys ∨ item ∈ p.impossible.keys))

/-- Nothing is decided about an item of which no count is fixed. -/
theorem classify_eq_none_of_not_fixes {need : ItemRequirement} (h : ¬ p.Fixes need.item) :
    p.classify need = none := by
  obtain ⟨hstarting, himpossible⟩ := not_or.1 h
  have hstarting' : p.starting.get? need.item = none :=
    Option.eq_none_iff_forall_not_mem.2 fun _ hget => hstarting (Dict.mem_keys_of_get? hget)
  have himpossible' : p.impossible.get? need.item = none :=
    Option.eq_none_iff_forall_not_mem.2 fun _ hget => himpossible (Dict.mem_keys_of_get? hget)
  rw [classify, hstarting', himpossible']
  rfl

/-- An inventory that holds at least the copies held at the start and fewer copies than can never be
reached. -/
structure Admits (p : PredeterminedItems) (inventory : String → Nat) : Prop where
  starting (item : String) (count : UInt32) :
    p.starting.get? item = some count → count.toNat ≤ inventory item
  impossible (item : String) (limit : UInt32) :
    p.impossible.get? item = some limit → inventory item < limit.toNat

/-- An inventory has enough copies for a requirement that is decided if and only if it is decided to
be satisfied. -/
theorem Admits.classify (h : p.Admits inventory) {outcome : Predetermined}
    (hitem : p.classify (ItemRequirement.parse text) = some outcome) :
    ItemRequirement.heldIn inventory text = true ↔ outcome = .satisfied := by
  rw [ItemRequirement.heldIn, decide_eq_true_iff]
  cases outcome with
  | satisfied =>
    obtain ⟨count, hcount, hle⟩ := classify_eq_satisfied_iff.1 hitem
    have henough := h.starting _ count hcount
    rw [UInt32.le_iff_toNat_le] at hle
    exact ⟨fun _ => rfl, fun _ => Nat.le_trans hle henough⟩
  | unsatisfiable =>
    obtain ⟨limit, hlimit, hle⟩ := exists_limit_of_classify hitem
    have hfewer := h.impossible _ limit hlimit
    rw [UInt32.le_iff_toNat_le] at hle
    exact ⟨fun henough => by omega, nofun⟩

end PredeterminedItems

/-! ### One atom with and without items that settings fix -/

namespace Resolution

variable {r : Resolution} {flattened : Bool} {atom : String} {inventory : String → Nat}

/-- The state in which the settings fix no item. -/
def unfixed (r : Resolution) : Resolution := { r with predetermined := {} }

/-- What the settings fix are items: neither a terminal nor what the atom of a boss reads as. -/
structure FixesItems (r : Resolution) : Prop where
  nothing : ¬ r.predetermined.Fixes nothingText
  impossible : ¬ r.predetermined.Fixes impossibleText
  bosses : ∀ boss ∈ r.data.requiredBosses,
    ¬ r.predetermined.Fixes (ItemRequirement.parse boss.requirement).item

namespace FixesItems

variable (h : r.FixesItems)

include h

/-- An atom about which something is decided is neither a terminal nor the atom of a boss. -/
theorem of_classify {outcome : Predetermined}
    (hitem : r.predetermined.classify (ItemRequirement.parse atom) = some outcome) :
    isTerminal atom = false ∧ r.data.bossOfRequirement? atom = none := by
  have hfixes : r.predetermined.Fixes (ItemRequirement.parse atom).item := by
    refine Decidable.byContradiction fun hnot => ?_
    have hnone := PredeterminedItems.classify_eq_none_of_not_fixes hnot
    exact absurd (hnone.symm.trans hitem) nofun
  constructor
  · have hne : atom ≠ nothingText := by
      rintro rfl
      exact h.nothing hfixes
    have hne' : atom ≠ impossibleText := by
      rintro rfl
      exact h.impossible hfixes
    simp [isTerminal, hne, hne']
  · cases hboss : r.data.bossOfRequirement? atom with
    | none => rfl
    | some boss =>
      obtain rfl : boss.requirement = atom := by simpa using List.find?_some hboss
      exact absurd hfixes (h.bosses boss (List.mem_of_find?_eq_some hboss))

/-- Without items that settings fix, an atom keeps its meaning or is an item that has been
decided. -/
theorem meaning {meaning : AtomMeaning} (hc : r.Classified flattened atom meaning) :
    r.unfixed.Classified flattened atom meaning ∨
      ∃ outcome, meaning = .predetermined outcome ∧
        r.predetermined.classify (ItemRequirement.parse atom) = some outcome ∧
        r.unfixed.Classified flattened atom .plainItem := by
  have hitemLike (hatom : r.ItemLike flattened atom) : r.unfixed.ItemLike flattened atom :=
    ⟨hatom.not_macro, hatom.not_conditional, hatom.not_reference, rfl⟩
  cases hc with
  | macroText hdefined => exact Or.inl (.macroText hdefined)
  | conditional hdefined hparse => exact Or.inl (.conditional hdefined hparse)
  | otherLocation hdefined hparse hreference hsplit =>
    exact Or.inl (.otherLocation hdefined hparse hreference hsplit)
  | @predetermined outcome hdefined hparse hreference hitem =>
    have hatom' : r.unfixed.ItemLike flattened atom := ⟨hdefined, hparse, hreference, rfl⟩
    exact Or.inr ⟨outcome, rfl, hitem, .plainItem hatom' (h.of_classify hitem).2⟩
  | @boss required hatom hboss =>
    have hmeaning : r.unfixed.Classified flattened atom
        (.boss (r.unfixed.bossMeaning flattened required)) := .boss (hitemLike hatom) hboss
    exact Or.inl hmeaning
  | plainItem hatom hboss => exact Or.inl (.plainItem (hitemLike hatom) hboss)

/-- An item that has been decided has the value that the inventory gives to its leaf. -/
theorem evaluate_eq_of_classify (hinventory : r.predetermined.Admits inventory)
    {outcome : Predetermined} {t : Requirement}
    (hitem : r.predetermined.classify (ItemRequirement.parse atom) = some outcome)
    (ht : (AtomMeaning.predetermined outcome).expansion r.data flattened atom = .ok (.tree t)) :
    t.evaluate (ItemRequirement.heldIn inventory) =
      (leaf atom).evaluate (ItemRequirement.heldIn inventory) := by
  have hleaf : (leaf atom).evaluate (ItemRequirement.heldIn inventory) =
      ItemRequirement.heldIn inventory atom := by
    obtain ⟨hnothing, himpossible⟩ : atom ≠ nothingText ∧ atom ≠ impossibleText := by
      simpa [isTerminal] using (h.of_classify hitem).1
    rw [evaluate_leaf]
    simp [hnothing, himpossible]
  have hheld := hinventory.classify hitem
  rw [hleaf]
  cases outcome with
  | satisfied =>
    cases ht
    rw [evaluate_nothing, hheld.2 rfl]
  | unsatisfiable =>
    cases ht
    rw [evaluate_impossible, Bool.eq_false_iff.2 fun heq => nomatch hheld.1 heq]

/-- An atom has the same expansion with and without items that settings fix, or finished trees with
one value. -/
theorem expansion (hinventory : r.predetermined.Admits inventory) {e e' : Expansion}
    (he : r.expansion flattened atom = .ok e) (he' : r.unfixed.expansion flattened atom = .ok e') :
    e' = e ∨ ∃ t t', e = .tree t ∧ e' = .tree t' ∧
      t.evaluate (ItemRequirement.heldIn inventory) =
        t'.evaluate (ItemRequirement.heldIn inventory) := by
  obtain ⟨meaning, hc, hmeaning⟩ := expansion_eq_ok_iff.1 he
  obtain ⟨meaning', hc', hmeaning'⟩ := expansion_eq_ok_iff.1 he'
  rcases h.meaning hc with hsame | ⟨outcome, rfl, hitem, hplain⟩
  · obtain rfl := hc'.unique hsame
    exact Or.inl (Except.ok.inj (hmeaning'.symm.trans hmeaning))
  · obtain rfl := hc'.unique hplain
    cases hmeaning'
    obtain ⟨t, rfl⟩ : ∃ t, e = .tree t := by
      cases outcome <;> cases hmeaning <;> exact ⟨_, rfl⟩
    exact Or.inr ⟨t, leaf atom, rfl, rfl, h.evaluate_eq_of_classify hinventory hitem hmeaning⟩

/-- With and without items that settings fix, the states are comparable in both directions. -/
theorem below (hinventory : r.predetermined.Admits inventory) :
    r.Below (ItemRequirement.heldIn inventory) r.unfixed ∧
      r.unfixed.Below (ItemRequirement.heldIn inventory) r := by
  refine ⟨⟨rfl, fun he he' => ?_⟩, ⟨rfl, fun he' he => ?_⟩⟩
  · rcases h.expansion hinventory he he' with rfl | ⟨t, t', rfl, rfl, heq⟩
    · exact .same _
    · exact .of_evaluate_eq heq
  · rcases h.expansion hinventory he he' with rfl | ⟨t, t', rfl, rfl, heq⟩
    · exact .same _
    · exact .of_evaluate_eq heq.symm

end FixesItems

end Resolution

/-! ### Trees that sessions build -/

/-- Take two coherent sessions, the second with the first one's state but without items that
settings fix. When these are neither terminals nor atoms of bosses, the trees that the two sessions
build of a requirement text have the same value under every inventory that holds at least the copies
held at the start and fewer copies than can never be reached. A session that remembers nothing is
coherent, and so is every session that is reached from a start. -/
theorem evaluate_eq_of_counting {s s' : Session} (hs : s.Coherent) (hs' : s'.Coherent)
    (hunfixed : s'.resolution = s.resolution.unfixed) (hfixes : s.resolution.FixesItems)
    {inventory : String → Nat} (hinventory : s.predetermined.Admits inventory)
    {requirement : String} {flattened : Bool} {t t' : Requirement}
    (ht : (s.outcome (rawTree requirement flattened)).1 = .ok t)
    (ht' : (s'.outcome (rawTree requirement flattened)).1 = .ok t') :
    t.evaluate (ItemRequirement.heldIn inventory) =
      t'.evaluate (ItemRequirement.heldIn inventory) := by
  have hbuilds := hs.outcome_buildWith (eq_outcome_of_fst ht)
  have hbuilds' := hs'.outcome_buildWith (eq_outcome_of_fst ht')
  rw [hunfixed] at hbuilds'
  obtain ⟨hbelow, habove⟩ := hfixes.below hinventory
  exact Bool.eq_iff_iff.2
    ⟨hbelow.evaluate_builds hbuilds hbuilds', habove.evaluate_builds hbuilds' hbuilds⟩

/-- Settings without swords. -/
def swordlessSettings : Settings :=
  { options := .ofList [(OptionName.swordMode, .choice OptionChoice.swordless)] }

/-- An alternative in the keep between a sword, which can never be found, and a key, behind a harp
that is held from the start. The tree of a session in which nothing is fixed keeps all of them. -/
theorem evaluate_eq_of_counting_keep :
    let s := fresh swordlessSettings keep {}
    let s' := { s with predetermined := {} }
    let requirement := "Wind's Requiem & (Progressive Sword x1 | Keep Small Key x2)"
    let inventory := fun item =>
      if item = ItemName.progressiveSword ∨ item = ItemName.hurricaneSpin then 0 else 1
    let t := join .and [.nothing, join .or [.impossible, .leaf "Keep Small Key x2"]]
    let t' := join .and [.leaf "Wind's Requiem",
      join .or [.leaf "Progressive Sword x1", .leaf "Keep Small Key x2"]]
    s.Coherent ∧ s'.Coherent ∧ s'.resolution = s.resolution.unfixed ∧
      s.resolution.FixesItems ∧ s.predetermined.Admits inventory ∧
      (s.outcome (rawTree requirement false)).1 = .ok t ∧
      (s'.outcome (rawTree requirement false)).1 = .ok t' ∧
      t.evaluate (ItemRequirement.heldIn inventory) =
        t'.evaluate (ItemRequirement.heldIn inventory) := by
  intro s s' requirement inventory t t'
  have hs : s.Coherent := .of_empty rfl
  have hs' : s'.Coherent := .of_empty rfl
  have hfixes : s.resolution.FixesItems :=
    ⟨by decide +kernel, by decide +kernel, by decide +kernel⟩
  have hstarting : ∀ entry ∈ s.predetermined.starting.entries,
      entry.2.toNat ≤ inventory entry.1 := by decide +kernel
  have himpossible : ∀ entry ∈ s.predetermined.impossible.entries,
      inventory entry.1 < entry.2.toNat := by decide +kernel
  have hinventory : s.predetermined.Admits inventory :=
    { starting := fun item count hget => hstarting (item, count) (Dict.mem_entries_of_get? hget)
      impossible := fun item limit hget =>
        himpossible (item, limit) (Dict.mem_entries_of_get? hget) }
  have ht : (s.outcome (rawTree requirement false)).1 = .ok t := by decide +kernel
  have ht' : (s'.outcome (rawTree requirement false)).1 = .ok t' := by decide +kernel
  exact ⟨hs, hs', rfl, hfixes, hinventory, ht, ht',
    evaluate_eq_of_counting hs hs' rfl hfixes hinventory ht ht'⟩

end SeedLogic
