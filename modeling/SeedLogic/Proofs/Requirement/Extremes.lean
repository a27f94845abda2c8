import SeedLogic.Proofs.Requirement.Meaning
import SeedLogic.Proofs.Requirement.NormalForm

/-!
# Trivial requirements

A requirement may hold with no item at all, or fail with every item. Simplification finds both
kinds: it turns exactly the former into `Nothing` and exactly the latter into `Impossible`. In the
order of a connective both are the same fact, about the terminal that is the identity of the
connective and the choice of held leaves that decides as many of its nodes as possible.

Simplification keeps the meaning for this choice, so it remains to see that the identity is the only
normal form with the other truth value. In a node of the same connective all operands would have
this value, and in a node of the other connective one would, so by induction a terminal would stand
below a node.

## Main results

* `Requirement.NormalForm.eq_identity` : trivial normal forms.
* `Requirement.simplify_eq_identity_iff` : trees whose simplified form is an identity terminal.
* `Requirement.simplify_decides_trivial` : simplification decides both kinds.
-/

namespace SeedLogic.Requirement

variable {leafImplies : LeafImplication} {connective : Connective}

/-- A normal form that stays undecided although every leaf decides is the terminal that may be left
out. -/
theorem NormalForm.eq_identity {r : Requirement} (h : NormalForm leafImplies r)
    (hr : r.evaluate (fun _ => connective.decisive) = !connective.decisive) :
    r = .leaf connective.identityText := by
  induction h with
  | leaf text =>
    cases hterminal : isTerminal text with
    | false =>
      rw [evaluate_leaf_of_isTerminal_eq_false _ hterminal] at hr
      simp at hr
    | true =>
      rcases terminal_cases connective hterminal with rfl | rfl
      · simp [evaluate_annihilator] at hr
      · rfl
  | node other operands two_le normal foreign irredundant ih =>
    -- No operand is a terminal, so the hypothesis of the induction refutes any that is undecided.
    have hdecides (t : Requirement) (ht : t ∈ operands) :
        t.evaluate (fun _ => connective.decisive) ≠ !connective.decisive := fun hundecided =>
      Bool.false_ne_true
        (((foreign t ht).not_terminal _ (ih t ht hundecided)).symm.trans isTerminal_identity)
    by_cases hother : other = connective
    · subst hother
      obtain ⟨t, ht⟩ : ∃ t, t ∈ operands :=
        List.exists_mem_of_length_pos (Nat.lt_of_lt_of_le Nat.zero_lt_two two_le)
      exact absurd (evaluate_join_eq_not_iff.1 hr t ht) (hdecides t ht)
    · rw [← Connective.decisive_of_ne hother] at hr
      obtain ⟨t, ht, hundecided⟩ := evaluate_join_iff.1 hr
      exact absurd (hundecided.trans (Connective.decisive_of_ne hother)) (hdecides t ht)

/-- A tree is simplified to the terminal that may be left out exactly when it stays undecided
although every leaf decides, provided that the relation on leaves is sound for this choice. -/
theorem simplify_eq_identity_iff
    (hsound : leafImplies.Sound fun _ => connective.decisive) (r : Requirement) :
    r.simplify leafImplies = .leaf connective.identityText ↔
      r.evaluate (fun _ => connective.decisive) = !connective.decisive := by
  rw [← evaluate_simplify_of_sound hsound r]
  constructor
  · intro h
    rw [h, evaluate_identity]
  · exact (normalForm_simplify r).eq_identity

/-- Comparing item counts is sound when all leaves hold or none does. -/
theorem implies_sound_const (value : Bool) :
    LeafImplication.Sound ItemRequirement.implies fun _ => value :=
  ItemRequirement.implies_sound_of_mono fun _ _ _ _ h => h

/-- Comparing item counts, simplification turns a tree into `Nothing` exactly when it holds without
any item, and into `Impossible` exactly when it fails with every item. -/
theorem simplify_decides_trivial (r : Requirement) :
    (r.simplify ItemRequirement.implies = nothing ↔ r.evaluate (fun _ => false) = true) ∧
      (r.simplify ItemRequirement.implies = impossible ↔ r.evaluate (fun _ => true) = false) :=
  have hnothing := simplify_eq_identity_iff (implies_sound_const Connective.and.decisive) r
  have himpossible := simplify_eq_identity_iff (implies_sound_const Connective.or.decisive) r
  ⟨hnothing, himpossible⟩

end SeedLogic.Requirement
