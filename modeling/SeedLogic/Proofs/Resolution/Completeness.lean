import Mathlib.Control.Monad.Basic
import SeedLogic.Proofs.Requirement.Leaves
import SeedLogic.Proofs.Resolution.Derivation
import SeedLogic.Proofs.Session.Runs

/-!
# Resolution is complete

Every leaf of a tree that a session answers is a terminal, a plain item, or outside flattened mode
a boss that is required. No macro, conditional, reference to another location, predetermined item
or boss that is not required is left, in whichever mode, and also when the answer was remembered
while other bosses were marked and other settings held.

The leaves of a derived tree come from finished expansions, which keep an atom only when no rule
applies to it, and simplification adds nothing but terminals.

## Main definitions

* `Resolution.Residual` : leaves that resolution may leave.
* `Resolution.Irreducible` : atoms to which no rule applies.
* `Operation.treeMode?` : the operations that answer a tree, with their mode.

## Main results

* `Resolution.Builds.residual` : the leaves of derived trees.
* `answered_leaves_residual` : the leaves of answers after a run.
-/

namespace SeedLogic

open Requirement Session

/-! ### Leaves of derived trees -/

namespace Resolution

variable {r : Resolution} {known : Question → Bool} {flattened : Bool} {atom text leaf : String}
  {t : Requirement}

/-- A leaf that may be left: a terminal, a plain item, or outside flattened mode a boss. -/
def Residual (r : Resolution) (flattened : Bool) (leaf : String) : Prop :=
  isTerminal leaf = true ∨ r.classify flattened leaf = .ok .plainItem ∨
    flattened = false ∧ r.classify flattened leaf = .ok (.boss .opaqueLeaf)

/-- An atom to which no rule applies, except that it may stand for a boss that is required and kept
outside flattened mode. -/
structure Irreducible (r : Resolution) (flattened : Bool) (atom : String) : Prop
    extends r.ItemLike flattened atom where
  boss_required (boss : RequiredBoss) :
    r.data.bossOfRequirement? atom = some boss →
      flattened = false ∧ r.notRequired.contains boss.dungeon = false

/-- No rule applies to a leaf that may be left, unless it is a terminal. -/
theorem Residual.irreducible (h : r.Residual flattened leaf) :
    isTerminal leaf = true ∨ r.Irreducible flattened leaf := by
  rcases h with hterminal | hplain | ⟨-, hboss⟩
  · exact Or.inl hterminal
  · cases classify_eq_ok_iff.1 hplain with
    | plainItem hatom hnone =>
      have hrequired (boss : RequiredBoss) (hsome : r.data.bossOfRequirement? leaf = some boss) :
          flattened = false ∧ r.notRequired.contains boss.dungeon = false :=
        absurd (hnone.symm.trans hsome) nofun
      exact Or.inr ⟨hatom, hrequired⟩
  · obtain ⟨hatom, required, hfound, hmeaning⟩ := (classify_eq_ok_iff.1 hboss).exists_boss
    have hrequired (boss : RequiredBoss) (hsome : r.data.bossOfRequirement? leaf = some boss) :
        flattened = false ∧ r.notRequired.contains boss.dungeon = false := by
      obtain rfl : required = boss := Option.some.inj (hfound.symm.trans hsome)
      exact bossMeaning_eq_opaqueLeaf_iff.1 hmeaning
    exact Or.inr ⟨hatom, hrequired⟩

/-- The leaves of a derived tree may be left. -/
theorem Resolves.residual (h : r.Resolves known flattened atom t) :
    ∀ leaf ∈ t.leaves, r.Residual flattened leaf := by
  induction h with
  | @finished atom t hexpansion =>
    intro leaf hleaf
    obtain ⟨meaning, hclassified, hmeaning⟩ := expansion_eq_ok_iff.1 hexpansion
    rcases AtomMeaning.of_expansion_eq_tree hmeaning with rfl | rfl | ⟨rfl, hkept⟩
    · obtain rfl : leaf = nothingText := by simpa [nothing] using hleaf
      exact Or.inl rfl
    · obtain rfl : leaf = impossibleText := by simpa [impossible] using hleaf
      exact Or.inl rfl
    · obtain rfl : leaf = atom := by simpa using hleaf
      rcases hkept with rfl | rfl
      · exact Or.inr (Or.inl hclassified.classify_eq)
      · obtain ⟨-, required, -, hboss⟩ := hclassified.exists_boss
        exact Or.inr (Or.inr
          ⟨(bossMeaning_eq_opaqueLeaf_iff.1 hboss).1, hclassified.classify_eq⟩)
  | unfolded hstands hbuild hleaves ih =>
    intro leaf hleaf
    obtain ⟨replaced, hreplaced, hleaf⟩ := mem_leaves_subst.1 hleaf
    exact ih replaced hreplaced leaf hleaf

/-- The leaves of the derived tree of a text may be left. -/
theorem Builds.residual (h : r.Builds known flattened text t) :
    ∀ leaf ∈ t.leaves, r.Residual flattened leaf := by
  obtain ⟨literal, f, -, hleaves, rfl⟩ := h
  intro leaf hleaf
  obtain ⟨replaced, hreplaced, hleaf⟩ := mem_leaves_subst.1 hleaf
  exact (hleaves replaced hreplaced).residual leaf hleaf

/-- Simplification leaves only leaves that may be left. -/
theorem Residual.simplified (h : ∀ leaf ∈ t.leaves, r.Residual flattened leaf) :
    ∀ leaf ∈ (Session.simplified t).leaves, r.Residual flattened leaf := by
  intro leaf hleaf
  rcases mem_leaves_of_mem_simplify hleaf with hterminal | hold
  · exact Or.inl hterminal
  · exact h leaf hold

end Resolution

/-! ### Answers -/

/-- The mode in which an operation answers a tree. -/
def Operation.treeMode? : Operation → Option Bool
  | .requirementsForLocation _ _ flattened => some flattened
  | .rawRequirementsForLocation _ _ flattened => some flattened
  | .requirementsForEntrance _ => some false
  | .buildRequirement _ flattened => some flattened
  | _ => none

/-- A tree that a faithful session answers has been derived, and perhaps simplified. -/
theorem Session.Faithful.exists_builds {s : Session} (hs : s.Faithful) {operation : Operation}
    {flattened : Bool} {t : Requirement} (hmode : operation.treeMode? = some flattened)
    (hreply : (operation.perform s).1 = .ok (.tree t)) :
    ∃ known text raw, s.resolution.Builds known flattened text raw ∧
      (t = raw ∨ t = simplified raw) := by
  cases operation with
  | requirementsForLocation general detailed mode =>
    cases hmode
    obtain ⟨a, s', hquery, ha⟩ := exists_of_outcome_map hreply
    cases ha
    obtain ⟨raw, ⟨entry, -, hbuilds⟩, ht⟩ := hs.outcome_locationTree (outcome_of_audited hquery)
    exact ⟨_, _, raw, hbuilds, Or.inr ht⟩
  | rawRequirementsForLocation general detailed mode =>
    cases hmode
    obtain ⟨a, s', hquery, ha⟩ := exists_of_outcome_map hreply
    cases ha
    obtain ⟨entry, -, hbuilds⟩ := hs.outcome_rawLocationTree (outcome_of_audited hquery)
    exact ⟨_, _, _, hbuilds, Or.inl rfl⟩
  | requirementsForEntrance entrance =>
    cases hmode
    obtain ⟨a, s', hquery, ha⟩ := exists_of_outcome_map hreply
    cases ha
    rw [requirementsForEntrance_eq_answered] at hquery
    obtain ⟨name, raw, -, hbuilds, ht⟩ := hs.outcome_entrance (outcome_of_audited hquery)
    exact ⟨_, _, raw, hbuilds, Or.inr ht⟩
  | buildRequirement text mode =>
    cases hmode
    obtain ⟨a, s', hquery, ha⟩ := exists_of_outcome_map hreply
    cases ha
    obtain ⟨raw, u, hraw, ht⟩ :=
      exists_of_outcome_bind (congrArg Prod.fst (outcome_of_audited hquery))
    cases ht
    exact ⟨_, _, raw, hs.outcome_rawTree hraw, Or.inr rfl⟩
  | _ => cases hmode

/-- After every run, the leaves of every tree that is answered are terminals, plain items or,
outside flattened mode, bosses under the current settings and choice of bosses. No rule of
resolution applies to a leaf that is no terminal. -/
theorem answered_leaves_residual {settings : Settings} {data : GameData} {start : Session}
    (hstart : (Session.start settings data).1 = .ok start) (operations : List Operation)
    {operation : Operation} {flattened : Bool} {t : Requirement}
    (hmode : operation.treeMode? = some flattened)
    (hreply : (operation.perform (start.after operations)).1 = .ok (.tree t)) :
    let r := (start.after operations).resolution
    ∀ leaf ∈ t.leaves, r.Residual flattened leaf ∧
      (isTerminal leaf = true ∨ r.Irreducible flattened leaf) := by
  intro r leaf hleaf
  have hfaithful := ((Faithful.of_start hstart).1.after operations).1
  obtain ⟨known, text, raw, hbuilds, ht⟩ := hfaithful.exists_builds hmode hreply
  have hresidual : r.Residual flattened leaf := by
    rcases ht with rfl | rfl
    · exact hbuilds.residual leaf hleaf
    · exact Resolution.Residual.simplified hbuilds.residual leaf hleaf
  exact ⟨hresidual, hresidual.irreducible⟩

/-- The chest of the keep, remembered from before its boss is marked and unmarked. -/
theorem answered_leaves_residual_keep :
    let operations := [.requirementsForLocation "Keep" "Chest" true, .setBossNotRequired "Keep",
      .requirementsForLocation "Keep" "Chest" false, .setBossRequired "Keep"]
    let operation := Operation.requirementsForLocation "Keep" "Chest" false
    let t := join .and [.leaf "Can Defeat Warden",
      .leaf "Has Accessed Other Location \"Keep - Gate\"", .leaf "Keep Small Key x1"]
    (Session.start {} keep).1 = .ok (initial {} keep) ∧
    (operation.perform ((initial {} keep).after operations)).1 = .ok (.tree t) ∧
    ((initial {} keep).after operations).resolution.Residual false "Can Defeat Warden" := by
  intro operations operation t
  have hstart : (Session.start {} keep).1 = .ok (initial {} keep) := start_of_validate {} rfl
  have hreply : (operation.perform ((initial {} keep).after operations)).1 = .ok (.tree t) := by
    decide +kernel
  have hleaf : "Can Defeat Warden" ∈ t.leaves := by decide
  exact ⟨hstart, hreply, (answered_leaves_residual hstart operations rfl hreply _ hleaf).1⟩

end SeedLogic
