import SeedLogic.Proofs.Requirement.Scan
import SeedLogic.Proofs.Resolution.Expansion
import SeedLogic.Proofs.Session.Memory

/-!
# Derivations of requirement trees

The tree of an atom has a finite derivation. Either the atom is replaced by a finished tree, or it
stands for another requirement text, and the trees of the atoms of that text are put in place of
the leaves of its literal tree. A derivation neither counts levels nor mentions a cache. It only
names the locations that it asks for, which are known to the session in which it has been found.
So an answer that was remembered long ago has a derivation just as one that has been computed last,
and whatever holds of derivations holds of all answers.

## Main definitions

* `Resolution.StandsFor` : the requirement text for which an atom stands.
* `Resolution.Resolves`, `Resolution.Builds` : the derived trees of atoms and of texts.
* `Resolution.Located` : the derived trees of locations.
* `keep` : tables in which atoms are expanded in every way.

## Main results

* `Resolution.Resolves.unique` : an atom has one tree at most.
* `Resolution.resolves_of_run_expand` : recomputed expansions have derivations.
* `Session.Faithful.located`, `Session.Faithful.outcome_rawTree` : answers in a session.
-/

namespace SeedLogic

open Requirement

namespace Resolution

/-! ### Derivations -/

/-- The requirement text for which an atom stands: that of a macro, or that of a location whose
tree is known. -/
inductive StandsFor (r : Resolution) (known : Question → Bool) (flattened : Bool)
    (atom : String) : String → Prop
  | requirement {text : String} (h : r.expansion flattened atom = .ok (.requirement text)) :
      StandsFor r known flattened atom text
  | location {general detailed : String} {entry : LocationEntry}
      (h : r.expansion flattened atom = .ok (.location general detailed flattened))
      (hknown : known (.rawLocation general detailed flattened) = true)
      (hentry : r.data.locationEntry general detailed = .ok entry) :
      StandsFor r known flattened atom entry.need

/-- The tree that replaces an atom, by a finite derivation. -/
inductive Resolves (r : Resolution) (known : Question → Bool) (flattened : Bool) :
    String → Requirement → Prop
  | finished {atom : String} {t : Requirement}
      (h : r.expansion flattened atom = .ok (.tree t)) : Resolves r known flattened atom t
  | unfolded {atom text : String} {literal : Requirement} {f : String → Requirement}
      (hstands : r.StandsFor known flattened atom text) (hbuild : build text = .ok literal)
      (hleaves : ∀ leaf ∈ literal.leaves, Resolves r known flattened leaf (f leaf)) :
      Resolves r known flattened atom (literal.subst f)

/-- The tree of a requirement text, by derivations for its atoms. -/
def Builds (r : Resolution) (known : Question → Bool) (flattened : Bool) (text : String)
    (t : Requirement) : Prop :=
  ∃ (literal : Requirement) (f : String → Requirement), build text = .ok literal ∧
    (∀ leaf ∈ literal.leaves, r.Resolves known flattened leaf (f leaf)) ∧ t = literal.subst f

/-- The tree of a location, by derivations for the atoms of its requirement text. -/
def Located (r : Resolution) (known : Question → Bool) (general detailed : String)
    (flattened : Bool) (t : Requirement) : Prop :=
  ∃ entry, r.data.locationEntry general detailed = .ok entry ∧
    r.Builds known flattened entry.need t

variable {r : Resolution} {known known' : Question → Bool} {flattened : Bool}
  {atom text text' : String} {t t' : Requirement}

/-- An atom stands for one text at most. -/
theorem StandsFor.unique (h : r.StandsFor known flattened atom text)
    (h' : r.StandsFor known' flattened atom text') : text = text' := by
  cases h with
  | requirement hexpansion =>
    cases h' with
    | requirement hexpansion' =>
      rw [hexpansion] at hexpansion'
      cases hexpansion'
      rfl
    | location hexpansion' => exact absurd (hexpansion.symm.trans hexpansion') (by simp)
  | location hexpansion hknown hentry =>
    cases h' with
    | requirement hexpansion' => exact absurd (hexpansion.symm.trans hexpansion') (by simp)
    | location hexpansion' hknown' hentry' =>
      rw [hexpansion] at hexpansion'
      cases hexpansion'
      rw [hentry] at hentry'
      cases hentry'
      rfl

/-- An atom that stands for a text is not replaced by a finished tree. -/
theorem StandsFor.exists_expansion (h : r.StandsFor known flattened atom text) :
    ∃ expansion, r.expansion flattened atom = .ok expansion ∧ ∀ t, expansion ≠ .tree t := by
  cases h with
  | requirement hexpansion => exact ⟨_, hexpansion, nofun⟩
  | location hexpansion hknown hentry => exact ⟨_, hexpansion, nofun⟩

theorem StandsFor.expansion_ne (h : r.StandsFor known flattened atom text) :
    r.expansion flattened atom ≠ .ok (.tree t) := by
  obtain ⟨expansion, hexpansion, hne⟩ := h.exists_expansion
  rw [hexpansion]
  exact fun heq => hne t (Except.ok.inj heq)

/-- An atom has one tree at most. -/
theorem Resolves.unique (h : r.Resolves known flattened atom t)
    (h' : r.Resolves known' flattened atom t') : t = t' := by
  induction h generalizing t' with
  | finished hexpansion =>
    cases h' with
    | finished hexpansion' =>
      rw [hexpansion] at hexpansion'
      cases hexpansion'
      rfl
    | unfolded hstands' => exact absurd hexpansion hstands'.expansion_ne
  | unfolded hstands hbuild hleaves ih =>
    cases h' with
    | finished hexpansion' => exact absurd hexpansion' hstands.expansion_ne
    | unfolded hstands' hbuild' hleaves' =>
      obtain rfl := hstands.unique hstands'
      rw [hbuild] at hbuild'
      cases hbuild'
      exact subst_congr fun leaf hleaf => ih leaf hleaf (hleaves' leaf hleaf)

/-- A text has one tree at most. -/
theorem Builds.unique (h : r.Builds known flattened text t)
    (h' : r.Builds known' flattened text t') : t = t' := by
  obtain ⟨literal, f, hbuild, hleaves, rfl⟩ := h
  obtain ⟨literal', f', hbuild', hleaves', rfl⟩ := h'
  rw [hbuild] at hbuild'
  cases hbuild'
  exact subst_congr fun leaf hleaf => (hleaves leaf hleaf).unique (hleaves' leaf hleaf)

/-- A location has one tree at most. -/
theorem Located.unique {general detailed : String}
    (h : r.Located known general detailed flattened t)
    (h' : r.Located known' general detailed flattened t') : t = t' := by
  obtain ⟨entry, hentry, hbuilds⟩ := h
  obtain ⟨entry', hentry', hbuilds'⟩ := h'
  rw [hentry] at hentry'
  cases hentry'
  exact hbuilds.unique hbuilds'

/-! ### Recomputations -/

section Recomputation

variable {view : Session} {i : Reach} {general detailed : String}

private theorem eq_of_run_view {s : Session}
    (h : (Surroundings.within view i).view.run = some (.ok s)) : s = view := by
  cases h
  rfl

private theorem eq_of_run_lift {α : Type} {result : Except LogicError α} {a : α}
    (h : (liftM result : ExceptT LogicError Option α).run = some (.ok a)) : result = .ok a := by
  rw [run_lift] at h
  exact Option.some.inj h

/-- An atom with a recomputed tree is replaced by it at once, or its expansion goes on to it. -/
private theorem of_run_expandBy
    {beyond : Expansion → ExceptT LogicError Option Requirement}
    (h : ((Surroundings.within view i).expandBy beyond flattened atom).run = some (.ok t)) :
    view.resolution.expansion flattened atom = .ok (.tree t) ∨
      ∃ expansion, view.resolution.expansion flattened atom = .ok expansion ∧
        (∀ t, expansion ≠ .tree t) ∧ (beyond expansion).run = some (.ok t) := by
  obtain ⟨s, hview, hexpanded⟩ := exists_of_run_bind h
  rw [eq_of_run_view hview] at hexpanded
  obtain ⟨expansion, hlift, hnext⟩ := exists_of_run_bind hexpanded
  have hexpansion := eq_of_run_lift hlift
  cases expansion with
  | tree r =>
    cases hnext
    exact Or.inl hexpansion
  | requirement text => exact Or.inr ⟨_, hexpansion, nofun, hnext⟩
  | location general detailed mode => exact Or.inr ⟨_, hexpansion, nofun, hnext⟩

/-- A question that has a recomputed answer is known. -/
private theorem of_run_ask {q : Question} {answer : ExceptT LogicError Option q.Answer}
    {a : q.Answer} (h : ((Surroundings.within view i).ask q answer).run = some (.ok a)) :
    i.known q = true ∧ answer.run = some (.ok a) := by
  by_cases hknown : i.known q = true
  · simp only [Surroundings.within, if_pos hknown] at h
    exact ⟨hknown, h⟩
  · simp only [Surroundings.within, if_neg hknown] at h
    cases h

section Depth

variable {expand : Bool → String → ExceptT LogicError Option Requirement}
  (hexpand : ∀ flattened atom t, (expand flattened atom).run = some (.ok t) →
    view.resolution.Resolves i.known flattened atom t)

include hexpand

/-- A text is built by derivations when its atoms are expanded by derivations. -/
private theorem builds_of_expand (h : (buildWith (expand flattened) text).run = some (.ok t)) :
    view.resolution.Builds i.known flattened text t := by
  obtain ⟨literal, f, hbuild, hleaves, rfl⟩ := exists_subst_of_run_buildWith h
  exact ⟨literal, f, hbuild, fun leaf hleaf => hexpand flattened leaf _ (hleaves leaf hleaf), rfl⟩

private theorem located_of_expand
    (h : ((Surroundings.within view i).rawLocation expand general detailed flattened).run =
      some (.ok t)) :
    view.resolution.Located i.known general detailed flattened t := by
  obtain ⟨s, hview, hlocation⟩ := exists_of_run_bind h
  rw [eq_of_run_view hview] at hlocation
  obtain ⟨entry, hentry, hbuild⟩ := exists_of_run_bind hlocation
  exact ⟨entry, eq_of_run_lift hentry, builds_of_expand hexpand hbuild⟩

end Depth

/-- A recomputed expansion has a derivation. -/
theorem resolves_of_run_expand {depth : Nat}
    (h : ((Surroundings.within view i).expand depth flattened atom).run = some (.ok t)) :
    view.resolution.Resolves i.known flattened atom t := by
  induction depth generalizing flattened atom t with
  | zero =>
    rcases of_run_expandBy h with hexpansion | ⟨expansion, -, -, h⟩
    · exact .finished hexpansion
    · exact absurd h nofun
  | succ depth ih =>
    rcases of_run_expandBy h with hexpansion | ⟨expansion, hexpansion, htree, h⟩
    · exact .finished hexpansion
    · cases expansion with
      | tree r => exact absurd rfl (htree r)
      | requirement text =>
        obtain ⟨literal, f, hbuild, hleaves, rfl⟩ :=
          builds_of_expand (fun _ _ _ => ih) h
        exact .unfolded (.requirement hexpansion) hbuild hleaves
      | location general detailed mode =>
        obtain rfl := flattened_of_expansion hexpansion
        obtain ⟨hknown, h⟩ := of_run_ask h
        obtain ⟨entry, hentry, literal, f, hbuild, hleaves, rfl⟩ :=
          located_of_expand (fun _ _ _ => ih) h
        exact .unfolded (.location hexpansion hknown hentry) hbuild hleaves

/-- A recomputed tree of a text has derivations. -/
theorem builds_of_run_buildWith {depth : Nat}
    (h : (buildWith ((Surroundings.within view i).expand depth flattened) text).run =
      some (.ok t)) :
    view.resolution.Builds i.known flattened text t :=
  builds_of_expand (fun _ _ _ => resolves_of_run_expand) h

/-- A recomputed tree of a location has derivations. -/
theorem located_of_run_answer
    (h : (Reach.answer view (.rawLocation general detailed flattened) i).run = some (.ok t)) :
    view.resolution.Located i.known general detailed flattened t :=
  located_of_expand (fun _ _ _ => resolves_of_run_expand) h

/-- A recomputed simplified tree of a location simplifies a tree that has derivations. -/
theorem exists_located_of_run_answer
    (h : (Reach.answer view (.location general detailed flattened) i).run = some (.ok t)) :
    ∃ raw, view.resolution.Located i.known general detailed flattened raw ∧
      t = Session.simplified raw := by
  obtain ⟨raw, hraw, hsimplified⟩ := exists_of_run_bind h
  cases hsimplified
  exact ⟨raw, located_of_run_answer (of_run_ask hraw).2, rfl⟩

/-- A recomputed tree of an entrance simplifies the tree of its macro name. -/
theorem exists_builds_of_run_answer {entrance : String}
    (h : (Reach.answer view (.entrance entrance) i).run = some (.ok t)) :
    ∃ name raw, view.data.macroNameOfEntrance entrance = .ok name ∧
      view.resolution.Builds i.known false name raw ∧ t = Session.simplified raw := by
  obtain ⟨s, hview, hentrance⟩ := exists_of_run_bind h
  rw [eq_of_run_view hview] at hentrance
  obtain ⟨name, hlift, hname⟩ := exists_of_run_bind hentrance
  obtain ⟨raw, hraw, hsimplified⟩ := exists_of_run_bind hname
  cases hsimplified
  exact ⟨name, raw, eq_of_run_lift hlift, builds_of_run_buildWith hraw, rfl⟩

/-- A recomputed number of small keys is the least one for a simplified tree of the location that
has derivations. -/
theorem exists_minimumKeys_of_run_answer {count : UInt32}
    (h : (Reach.answer view (.smallKeys general detailed) i).run = some (.ok count)) :
    ∃ maximum key raw, view.maxSmallKeys general = .ok maximum ∧
      view.data.smallKeyName general = .ok key ∧
      view.resolution.Located i.known general detailed false raw ∧
      (Session.simplified raw).minimumKeys key maximum = some count := by
  obtain ⟨s, hview, hkeys⟩ := exists_of_run_bind h
  rw [eq_of_run_view hview] at hkeys
  obtain ⟨maximum, hmaximum, hkeys⟩ := exists_of_run_bind hkeys
  obtain ⟨key, hkey, hkeys⟩ := exists_of_run_bind hkeys
  obtain ⟨tree, htree, hcount⟩ := exists_of_run_bind hkeys
  obtain ⟨raw, hlocated, rfl⟩ := exists_located_of_run_answer (of_run_ask htree).2
  refine ⟨maximum, key, raw, eq_of_run_lift hmaximum, eq_of_run_lift hkey, hlocated, ?_⟩
  cases hleast : (Session.simplified raw).minimumKeys key maximum with
  | none =>
    rw [hleast] at hcount
    cases hcount
  | some least =>
    rw [hleast] at hcount
    cases hcount
    rfl

end Recomputation

end Resolution

/-! ### Answers in a session -/

/-- Atoms are resolved alike in sessions that grow from each other. -/
theorem Session.Grows.resolution_eq {s s' : Session} (h : s.Grows s') :
    s'.resolution = s.resolution := by
  have hbare : s'.bare.resolution = s.bare.resolution := congrArg resolution h.view
  exact hbare

/-- The tree of a text that a coherent session builds, with however many levels for expansions, has
derivations. -/
theorem Session.Coherent.outcome_buildWith {s s' : Session} (hs : s.Coherent) {depth : Nat}
    {flattened : Bool} {text : String} {t : Requirement}
    (h : s.outcome (buildWith (expandAtom depth flattened) text) = (.ok t, s')) :
    s.resolution.Builds s'.knows flattened text t := by
  obtain ⟨-, -, hsettles⟩ := settling_buildWith s.bare depth flattened text s hs rfl
  rw [Surroundings.expand_session, h] at hsettles
  obtain ⟨reached, hreached⟩ := hsettles t rfl
  exact Resolution.builds_of_run_buildWith
    (hreached ⟨s'.knows, reached⟩ ⟨fun _ hq => hq, Nat.le_refl _⟩)

namespace Session.Faithful

variable {s s' : Session} {general detailed text : String} {flattened : Bool} {t : Requirement}

/-- A remembered answer is recomputed within the reach of what is remembered. -/
theorem exists_run_answer (hs : s.Faithful) {q : Question} {a : q.Answer}
    (h : s.cache.get? q = some a) :
    ∃ depth, (Reach.answer s.bare q ⟨s.knows, depth⟩).run = some (.ok a) := by
  obtain ⟨depth, hdepth⟩ := hs.settled q a h
  exact ⟨depth, hdepth ⟨s.knows, depth⟩ ⟨fun _ hq => hq, Nat.le_refl _⟩⟩

/-- A remembered tree of a location has derivations. -/
theorem located (hs : s.Faithful)
    (h : s.cache.get? (.rawLocation general detailed flattened) = some t) :
    s.resolution.Located s.knows general detailed flattened t := by
  obtain ⟨depth, hrun⟩ := hs.exists_run_answer h
  exact Resolution.located_of_run_answer hrun

/-- A question that has been answered is remembered. -/
theorem outcome_answered (hs : s.Faithful) {q : Question} {a : q.Answer}
    (h : s.outcome (answered q) = (.ok a, s')) :
    s.Grows s' ∧ s'.Faithful ∧ s'.cache.get? q = some a := by
  obtain ⟨hgrows, hfaithful, hsettles⟩ := tracked_answered s.bare q s hs rfl
  rw [h] at hgrows hfaithful hsettles
  obtain ⟨depth, hdepth⟩ := hsettles a rfl
  obtain ⟨hknown, hrun⟩ :=
    Resolution.of_run_ask (hdepth ⟨s'.knows, depth⟩ ⟨fun _ hq => hq, Nat.le_refl _⟩)
  obtain ⟨b, hget⟩ := Option.isSome_iff_exists.1 hknown
  have hb := hfaithful.settled q b hget
  rw [hgrows.view] at hb
  obtain rfl : b = a := hb.unique (settles_of_run_eq hrun)
  exact ⟨hgrows, hfaithful, hget⟩

/-- The tree of a text that a session builds has derivations. -/
theorem outcome_rawTree (hs : s.Faithful) (h : s.outcome (rawTree text flattened) = (.ok t, s')) :
    s.resolution.Builds s'.knows flattened text t :=
  hs.coherent.outcome_buildWith h

/-- The tree of a location that a session gives is remembered and has derivations. -/
theorem outcome_rawLocationTree (hs : s.Faithful)
    (h : s.outcome (rawLocationTree general detailed flattened) = (.ok t, s')) :
    s.resolution.Located s'.knows general detailed flattened t := by
  rw [rawLocationTree_eq_answered] at h
  obtain ⟨hgrows, hfaithful, hget⟩ := hs.outcome_answered h
  have hlocated := hfaithful.located hget
  rwa [hgrows.resolution_eq] at hlocated

/-- The simplified tree of a location that a session gives simplifies a tree with derivations. -/
theorem outcome_locationTree (hs : s.Faithful)
    (h : s.outcome (locationTree general detailed flattened) = (.ok t, s')) :
    ∃ raw, s.resolution.Located s'.knows general detailed flattened raw ∧ t = simplified raw := by
  rw [locationTree_eq_answered] at h
  obtain ⟨hgrows, hfaithful, hget⟩ := hs.outcome_answered h
  obtain ⟨depth, hrun⟩ := hfaithful.exists_run_answer hget
  obtain ⟨raw, hlocated, ht⟩ := Resolution.exists_located_of_run_answer hrun
  rw [hgrows.view] at hlocated
  exact ⟨raw, hlocated, ht⟩

/-- The tree of an entrance that a session gives simplifies a tree with derivations. -/
theorem outcome_entrance (hs : s.Faithful) {entrance : String}
    (h : s.outcome (answered (.entrance entrance)) = (.ok t, s')) :
    ∃ name raw, s.data.macroNameOfEntrance entrance = .ok name ∧
      s.resolution.Builds s'.knows false name raw ∧ t = simplified raw := by
  obtain ⟨hgrows, hfaithful, hget⟩ := hs.outcome_answered h
  obtain ⟨depth, hrun⟩ := hfaithful.exists_run_answer hget
  obtain ⟨name, raw, hname, hbuilds, ht⟩ := Resolution.exists_builds_of_run_answer hrun
  rw [hgrows.view] at hname hbuilds
  exact ⟨name, raw, hname, hbuilds, ht⟩

/-- The number of small keys that a session gives for a location is the least one for a simplified
tree of the location that has derivations. -/
theorem outcome_smallKeys (hs : s.Faithful) {count : UInt32}
    (h : s.outcome (answered (.smallKeys general detailed)) = (.ok count, s')) :
    ∃ maximum key raw, s.maxSmallKeys general = .ok maximum ∧
      s.data.smallKeyName general = .ok key ∧
      s.resolution.Located s'.knows general detailed false raw ∧
      (simplified raw).minimumKeys key maximum = some count := by
  obtain ⟨hgrows, hfaithful, hget⟩ := hs.outcome_answered h
  obtain ⟨depth, hrun⟩ := hfaithful.exists_run_answer hget
  obtain ⟨maximum, key, raw, hmaximum, hkey, hlocated, hleast⟩ :=
    Resolution.exists_minimumKeys_of_run_answer hrun
  rw [hgrows.view] at hmaximum hkey hlocated
  exact ⟨maximum, key, raw, hmaximum, hkey, hlocated, hleast⟩

end Session.Faithful

/-- Tables of a keep. Its chest needs the warden to be defeated, the gate to have been accessed and
a key of the keep. -/
def keep : GameData where
  macros := .ofList [("Can Enter Keep", "Lantern | Option \"open_keep\" Enabled")]
  locations := .ofList [("Keep", .ofList [
    ("Gate", { need := "Can Enter Keep" }),
    ("Warden", { need := "Can Enter Keep & Sword", types := FlagName.boss }),
    ("Chest", { need := "Can Defeat Warden & Has Accessed Other Location \"Keep - Gate\" & " ++
      "Keep Small Key x1" })])]
  requiredBosses := [{ dungeon := "Keep", requirement := "Can Defeat Warden" }]
  dungeons := [{ name := "Keep", shortName := "Keep" }]

end SeedLogic
