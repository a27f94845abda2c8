import SeedLogic.Proofs.Resolution.Derivation

/-!
# Comparing two states

Two states with the same tables may still give an atom different expansions. As long as the one in
the first state is finished and fails, or the one in the second state is finished and holds, the
derivations need not go on alike: whatever holds in the first state then holds in the second one.
Everywhere else both derivations take the same text, and conjunctions and disjunctions are monotone.
So it is enough to compare the expansions of single atoms.

## Main definitions

* `Resolution.Expansion.Below` : one atom in both states.
* `Resolution.Below` : all atoms in both states.

## Main results

* `Resolution.Below.evaluate_resolves`, `Resolution.Below.evaluate_builds` : derived trees in both
  states.
-/

namespace SeedLogic

open Requirement

namespace Resolution

/-- The second expansion of an atom is the first one again, unless the first one is finished and
fails or the second one is finished and holds. -/
inductive Expansion.Below (held : String → Bool) : Expansion → Expansion → Prop
  | same (e : Expansion) : Below held e e
  | fails {t : Requirement} (e' : Expansion) (h : t.evaluate held = false) :
      Below held (.tree t) e'
  | holds (e : Expansion) {t' : Requirement} (h : t'.evaluate held = true) :
      Below held e (.tree t')

/-- Finished expansions are compared by their values. -/
theorem Expansion.Below.of_evaluate_eq {held : String → Bool} {t t' : Requirement}
    (h : t.evaluate held = t'.evaluate held) : Below held (.tree t) (.tree t') := by
  cases ht : t.evaluate held with
  | false => exact .fails _ ht
  | true => exact .holds _ (h.symm.trans ht)

/-- The states share their tables, and the expansions of each atom are comparable. -/
structure Below (held : String → Bool) (r r' : Resolution) : Prop where
  data : r'.data = r.data
  expansion {flattened : Bool} {atom : String} {e e' : Expansion} :
    r.expansion flattened atom = .ok e → r'.expansion flattened atom = .ok e' → e.Below held e'

namespace Below

variable {held : String → Bool} {r r' : Resolution} {known known' : Question → Bool}
  {flattened : Bool} {atom text text' : String} {t t' : Requirement}

/-- An atom that stands for texts in both states stands for the same one. -/
theorem text_eq (h : r.Below held r') (hstands : r.StandsFor known flattened atom text)
    (hstands' : r'.StandsFor known' flattened atom text') : text' = text := by
  obtain ⟨e, he, hne⟩ := hstands.exists_expansion
  obtain ⟨e', he', hne'⟩ := hstands'.exists_expansion
  obtain rfl : e' = e := by
    rcases h.expansion he he' with _ | _ | _
    · rfl
    · exact absurd rfl (hne _)
    · exact absurd rfl (hne' _)
  -- The expansions agree, and so do the tables in which a location is looked up.
  have hstandsToo : r.StandsFor known' flattened atom text' := by
    cases hstands' with
    | requirement hrequirement' =>
      obtain rfl := Except.ok.inj (he'.symm.trans hrequirement')
      exact .requirement he
    | location hlocation' hknown' hentry' =>
      obtain rfl := Except.ok.inj (he'.symm.trans hlocation')
      exact .location he hknown' (h.data ▸ hentry')
  exact hstandsToo.unique hstands

/-- The tree of an atom holds in the second state if it does in the first one. -/
theorem evaluate_resolves (h : r.Below held r') (ht : r.Resolves known flattened atom t)
    (ht' : r'.Resolves known' flattened atom t') :
    t.evaluate held = true → t'.evaluate held = true := by
  induction ht generalizing t' with
  | finished he =>
    cases ht' with
    | finished he' =>
      rcases h.expansion he he' with _ | ⟨_, hfails⟩ | ⟨_, hholds'⟩
      · exact id
      · exact fun hholds => absurd (hholds.symm.trans hfails) nofun
      · exact fun _ => hholds'
    | unfolded hstands' hbuild' hleaves' =>
      obtain ⟨e', he', hne'⟩ := hstands'.exists_expansion
      rcases h.expansion he he' with _ | ⟨_, hfails⟩ | _
      · exact absurd rfl (hne' _)
      · exact fun hholds => absurd (hholds.symm.trans hfails) nofun
      · exact absurd rfl (hne' _)
  | unfolded hstands hbuild hleaves ih =>
    cases ht' with
    | finished he' =>
      obtain ⟨e, he, hne⟩ := hstands.exists_expansion
      rcases h.expansion he he' with _ | _ | ⟨_, hholds'⟩
      · exact absurd rfl (hne _)
      · exact absurd rfl (hne _)
      · exact fun _ => hholds'
    | unfolded hstands' hbuild' hleaves' =>
      obtain rfl := h.text_eq hstands hstands'
      obtain rfl := Except.ok.inj (hbuild.symm.trans hbuild')
      exact evaluate_subst_mono fun leaf hleaf => ih leaf hleaf (hleaves' leaf hleaf)

/-- The tree of a text holds in the second state if it does in the first one. -/
theorem evaluate_builds (h : r.Below held r') (ht : r.Builds known flattened text t)
    (ht' : r'.Builds known' flattened text t') :
    t.evaluate held = true → t'.evaluate held = true := by
  obtain ⟨literal, f, hbuild, hleaves, rfl⟩ := ht
  obtain ⟨literal', f', hbuild', hleaves', rfl⟩ := ht'
  obtain rfl := Except.ok.inj (hbuild.symm.trans hbuild')
  exact evaluate_subst_mono fun leaf hleaf =>
    h.evaluate_resolves (hleaves leaf hleaf) (hleaves' leaf hleaf)

end Below

end Resolution

end SeedLogic
