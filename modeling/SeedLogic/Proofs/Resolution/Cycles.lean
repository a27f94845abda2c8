import Mathlib.Logic.Relation
import SeedLogic.Proofs.Requirement.FirstOffence
import SeedLogic.Proofs.Requirement.Reading
import SeedLogic.Proofs.Resolution.Derivation

/-!
# Circular definitions

An atom refers to the atoms of the text for which it stands: that of a macro, of a location, or of
the location of a boss. A derivation of its tree goes through all of them, and it is finite. So an
atom from which some atom is reached that is reached from itself has no tree, however many levels
expansions may nest and whatever is remembered. The remembered trees have derivations as well, hence
none of them can end a way around early.

## Main definitions

* `Requirement.atoms` : the atoms of a text.
* `Resolution.Refers` : one atom occurs in the text for which another one stands.
* `Resolution.Circular`, `Resolution.OnCycle` : texts that reach a cycle, and locations that lie on
  one.

## Main results

* `Requirement.leaves_of_build` : a text that is well formed has its atoms as leaves.
* `Resolution.Builds.not_circular` : a text that reaches a cycle has no tree.
* `Session.Faithful.cache_of_circular` : nor has such a location a remembered one.
-/

namespace SeedLogic

open Requirement

/-! ### Atoms of a text -/

/-- The atom that a token is. -/
def Token.atom? : Token → Option String
  | .atom text => some text
  | _ => none

/-- The atoms of a requirement text, from left to right. -/
def Requirement.atoms (text : String) : List String :=
  (Token.tokenize text).filterMap fun placed => placed.token.atom?

/-- A token that fits is connected if it is an atom. -/
theorem OpenScopes.connectedAtom?_of_fits {requirement : String} {scopes : OpenScopes}
    {placed : PlacedToken} (h : scopes.fault? requirement placed = none) :
    scopes.connectedAtom? placed = placed.token.atom? := by
  obtain ⟨token, position⟩ := placed
  cases token with
  | atom text =>
    have hafter : scopes.afterOperand = false := by simpa [fault?] using h
    rw [connectedAtom?, hafter]
    rfl
  | _ => rfl

/-- The atoms read so far grow by those among the tokens that are read. -/
theorem OpenScopes.atoms_of_readAll {requirement : String} {scopes scopes' : OpenScopes}
    {tokens : List PlacedToken} (h : scopes.readAll requirement tokens = .ok scopes') :
    scopes'.atoms = scopes.atoms ++ tokens.filterMap fun placed => placed.token.atom? := by
  induction tokens generalizing scopes with
  | nil =>
    obtain rfl := Except.ok.inj h
    rw [List.filterMap_nil, List.append_nil]
  | cons placed tokens ih =>
    cases hfault : scopes.fault? requirement placed with
    | some e => exact absurd ((readAll_of_fault hfault).symm.trans h) nofun
    | none =>
      rw [readAll_of_fits hfault] at h
      rw [ih h, atoms_read hfault, connectedAtom?_of_fits hfault, List.append_assoc]
      cases hatom : placed.token.atom? <;> simp [hatom]

/-- The literal tree of a text has the atoms of the text as leaves. -/
theorem Requirement.leaves_of_build {text : String} {literal : Requirement}
    (h : build text = .ok literal) : literal.leaves = atoms text := by
  rw [OpenScopes.build_eq_readAll] at h
  cases hread : OpenScopes.readAll text {} (Token.tokenize text) with
  | error e =>
    rw [hread] at h
    cases h
  | ok scopes =>
    rw [hread] at h
    by_cases hclosed : scopes.outer = []
    · simp only [Except.bind, OpenScopes.finish, if_pos hclosed] at h
      obtain rfl := Except.ok.inj h
      have hatoms := OpenScopes.atoms_of_readAll hread
      simp only [OpenScopes.atoms, hclosed] at hatoms
      rw [Part.tree, leaves_join]
      exact hatoms
    · simp only [Except.bind, OpenScopes.finish, if_neg hclosed] at h
      cases h

/-! ### Cycles -/

namespace Resolution

variable {r : Resolution} {known : Question → Bool} {flattened : Bool}
  {atom other text general detailed : String} {t : Requirement} {entry : LocationEntry}

/-- An atom refers to the atoms of the text for which it stands. -/
def Refers (r : Resolution) (flattened : Bool) (atom other : String) : Prop :=
  ∃ text, r.StandsFor (fun _ => true) flattened atom text ∧ other ∈ atoms text

/-- From the atoms of a text an atom is reached that is reached from itself. -/
def Circular (r : Resolution) (flattened : Bool) (text : String) : Prop :=
  ∃ atom ∈ atoms text, ∃ other, Relation.ReflTransGen (r.Refers flattened) atom other ∧
    Relation.TransGen (r.Refers flattened) other other

/-- A location replaces an atom that is reached from itself. -/
def OnCycle (r : Resolution) (general detailed : String) (flattened : Bool) : Prop :=
  ∃ atom, r.expansion flattened atom = .ok (.location general detailed flattened) ∧
    Relation.TransGen (r.Refers flattened) atom atom

/-- No atom that has a tree reaches an atom that is reached from itself. -/
theorem Resolves.not_transGen (h : r.Resolves known flattened atom t)
    (hreaches : Relation.ReflTransGen (r.Refers flattened) atom other) :
    ¬Relation.TransGen (r.Refers flattened) other other := by
  intro hcycle
  -- The way from the atom around the cycle has a first step, to an atom with a shorter derivation.
  induction h with
  | finished hexpansion =>
    obtain ⟨next, ⟨text, hstands, -⟩, -⟩ :=
      Relation.TransGen.head'_iff.1 (hcycle.trans_right hreaches)
    exact absurd hexpansion hstands.expansion_ne
  | unfolded hstands hbuild hleaves ih =>
    obtain ⟨next, ⟨text, hstands', hnext⟩, hrest⟩ :=
      Relation.TransGen.head'_iff.1 (hcycle.trans_right hreaches)
    obtain rfl := hstands.unique hstands'
    rw [← leaves_of_build hbuild] at hnext
    exact ih next hnext hrest

/-- A text that reaches a cycle has no tree. -/
theorem Builds.not_circular (h : r.Builds known flattened text t) : ¬r.Circular flattened text := by
  rintro ⟨atom, hatom, other, hreaches, hcycle⟩
  obtain ⟨literal, f, hbuild, hleaves, -⟩ := h
  rw [← leaves_of_build hbuild] at hatom
  exact (hleaves atom hatom).not_transGen hreaches hcycle

/-- The tree of a location is built from the requirement text in the tables. -/
theorem Located.builds (h : r.Located known general detailed flattened t)
    (hentry : r.data.locationEntry general detailed = .ok entry) :
    r.Builds known flattened entry.need t := by
  obtain ⟨other, hother, hbuilds⟩ := h
  obtain rfl : other = entry := Except.ok.inj (hother.symm.trans hentry)
  exact hbuilds

/-- A location on a cycle is in the tables, and its requirements reach the cycle. -/
theorem OnCycle.exists_entry (h : r.OnCycle general detailed flattened) :
    ∃ entry, r.data.locationEntry general detailed = .ok entry ∧
      r.Circular flattened entry.need := by
  obtain ⟨atom, hexpansion, hcycle⟩ := h
  obtain ⟨next, ⟨text, hstands, hnext⟩, hback⟩ := Relation.TransGen.head'_iff.1 hcycle
  cases hstands with
  | requirement hexpansion' => exact absurd (hexpansion.symm.trans hexpansion') (by simp)
  | location hexpansion' hknown hentry =>
    rw [hexpansion] at hexpansion'
    cases hexpansion'
    exact ⟨_, hentry, next, hnext, atom, hback, hcycle⟩

end Resolution

/-! ### What is remembered -/

namespace Session.Faithful

variable {s : Session} {general detailed : String} {flattened : Bool} {entry : LocationEntry}

/-- No tree is remembered for a location whose requirements reach a cycle. -/
theorem cache_of_circular (hs : s.Faithful)
    (hentry : s.data.locationEntry general detailed = .ok entry)
    (hcircular : s.resolution.Circular flattened entry.need) :
    s.cache.get? (.rawLocation general detailed flattened) = none ∧
      s.cache.get? (.location general detailed flattened) = none := by
  have hnone {known : Question → Bool} {t : Requirement} :
      ¬s.resolution.Located known general detailed flattened t :=
    fun hlocated => (hlocated.builds hentry).not_circular hcircular
  constructor
  · rw [Option.eq_none_iff_forall_not_mem]
    exact fun t hget => hnone (hs.located hget)
  · rw [Option.eq_none_iff_forall_not_mem]
    intro t hget
    obtain ⟨depth, hrun⟩ := hs.exists_run_answer hget
    obtain ⟨raw, hlocated, -⟩ := Resolution.exists_located_of_run_answer hrun
    exact hnone hlocated

end Session.Faithful

end SeedLogic
