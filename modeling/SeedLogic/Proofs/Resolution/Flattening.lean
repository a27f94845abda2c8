import Mathlib.Control.Monad.Basic
import SeedLogic.Proofs.Resolution.Derivation
import SeedLogic.Proofs.Resolution.References
import SeedLogic.Proofs.Session.Runs

/-!
# Flattened trees

The unsimplified tree of a location in flattened mode is its tree outside flattened mode with
other trees in place of some leaves. A boss that was kept is replaced by the flattened tree of the
boss location of its dungeon, a reference to an accessed location by the flattened tree of that
location, and every other leaf stays.

Both trees have derivations, found at different times and through different questions. They unfold
the same macros and locations, and part only where the derivation outside flattened mode ends with
a leaf.

## Main definitions

* `Resolution.Unambiguous` : references to accessed locations are neither items nor bosses.
* `Resolution.Opens` : what replaces a leaf in flattened mode.

## Main results

* `Resolution.Unambiguous.flattens` : one atom in both modes.
* `Resolution.Unambiguous.opened_of_builds` : derived trees in both modes.
* `flattened_tree_eq_subst` : answered trees in both modes.
-/

namespace SeedLogic

open Requirement Session

namespace Resolution

/-- No item that the settings fix is named like a reference to an accessed location, and no atom of
a boss is such a reference or a terminal. -/
structure Unambiguous (r : Resolution) : Prop where
  starting : ∀ item ∈ r.predetermined.starting.keys, accessedLocation? item = none
  impossible : ∀ item ∈ r.predetermined.impossible.keys, accessedLocation? item = none
  bosses : ∀ boss ∈ r.data.requiredBosses,
    isTerminal boss.requirement = false ∧ accessedLocation? boss.requirement = none

/-- What replaces a leaf in flattened mode, when `tree` gives the flattened trees of locations. -/
inductive Opens (r : Resolution) (tree : String → String → Requirement → Prop) (leaf : String) :
    Requirement → Prop
  | boss {required : RequiredBoss} {detailed : String} {t : Requirement}
      (hleaf : r.classify false leaf = .ok (.boss .opaqueLeaf))
      (hboss : r.data.bossOfRequirement? leaf = some required)
      (hlocation : r.data.bossLocation required.dungeon = .ok detailed)
      (htree : tree required.dungeon detailed t) : Opens r tree leaf t
  | reference {location general detailed : String} {t : Requirement}
      (haccessed : accessedLocation? leaf = some location)
      (hsplit : splitLocationName location = .ok (general, detailed))
      (htree : tree general detailed t) : Opens r tree leaf t
  | other (hleaf : r.classify false leaf ≠ .ok (.boss .opaqueLeaf))
      (haccessed : accessedLocation? leaf = none) : Opens r tree leaf (.leaf leaf)

variable {r : Resolution} {tree tree' : String → String → Requirement → Prop}
  {known known' : Question → Bool} {atom leaf text : String} {t t' : Requirement}

theorem Opens.mono (h : r.Opens tree leaf t)
    (htree : ∀ general detailed t, tree general detailed t → tree' general detailed t) :
    r.Opens tree' leaf t := by
  cases h with
  | boss hleaf hboss hlocation ht => exact .boss hleaf hboss hlocation (htree _ _ _ ht)
  | reference haccessed hsplit ht => exact .reference haccessed hsplit (htree _ _ _ ht)
  | other hleaf haccessed => exact .other hleaf haccessed

namespace Unambiguous

variable (h : r.Unambiguous)

include h

/-- The atom of a boss is neither a terminal nor a reference to an accessed location. -/
theorem of_bossOfRequirement? {required : RequiredBoss}
    (hboss : r.data.bossOfRequirement? atom = some required) :
    isTerminal atom = false ∧ accessedLocation? atom = none := by
  obtain rfl : required.requirement = atom := by
    simpa using List.find?_some hboss
  exact h.bosses required (List.mem_of_find?_eq_some hboss)

/-- An atom that is kept for a boss is neither a terminal nor a reference to an accessed
location. -/
theorem of_opaqueLeaf (hleaf : r.classify false leaf = .ok (.boss .opaqueLeaf)) :
    isTerminal leaf = false ∧ accessedLocation? leaf = none := by
  obtain ⟨-, required, hboss, -⟩ := (classify_eq_ok_iff.1 hleaf).exists_boss
  exact h.of_bossOfRequirement? hboss

omit h in
private theorem get?_eq_none {counts : Dict String UInt32}
    (hkeys : ∀ item ∈ counts.keys, accessedLocation? item = none) {location : String}
    (haccessed : accessedLocation? atom = some location) : counts.get? atom = none := by
  cases hget : counts.get? atom with
  | none => rfl
  | some count =>
    have hnone := hkeys atom (Dict.mem_keys_of_get? hget)
    exact absurd (hnone.symm.trans haccessed) nofun

/-- A reference to an accessed location is no item that the settings fix. -/
theorem classify_eq_none {location : String} (haccessed : accessedLocation? atom = some location) :
    r.predetermined.classify (ItemRequirement.parse atom) = none := by
  rw [ItemRequirement.parse_of_quotedAfter? haccessed, PredeterminedItems.classify,
    get?_eq_none h.starting haccessed, get?_eq_none h.impossible haccessed]
  rfl

/-- A terminal stays. -/
theorem opens_terminal (hterminal : isTerminal leaf = true) : r.Opens tree leaf (.leaf leaf) := by
  have haccessed : accessedLocation? leaf = none := by
    have hcases : leaf = nothingText ∨ leaf = impossibleText := by
      simpa [isTerminal] using hterminal
    rcases hcases with rfl | rfl <;> decide
  exact .other (fun hleaf => absurd (hterminal.symm.trans (h.of_opaqueLeaf hleaf).1) nofun)
    haccessed

/-- A leaf is replaced by one tree at most, when locations have one tree at most. -/
theorem opens_unique (htree : ∀ general detailed t t', tree general detailed t →
      tree general detailed t' → t = t')
    (ht : r.Opens tree leaf t) (ht' : r.Opens tree leaf t') : t = t' := by
  cases ht with
  | boss hleaf hboss hlocation hfirst =>
    have hnone := (h.of_opaqueLeaf hleaf).2
    cases ht' with
    | boss hleaf' hboss' hlocation' hsecond =>
      obtain rfl := Option.some.inj (hboss.symm.trans hboss')
      obtain rfl := Except.ok.inj (hlocation.symm.trans hlocation')
      exact htree _ _ _ _ hfirst hsecond
    | reference haccessed => exact absurd (hnone.symm.trans haccessed) nofun
    | other hleaf' => exact absurd hleaf hleaf'
  | reference haccessed hsplit hfirst =>
    cases ht' with
    | boss hleaf' =>
      exact absurd ((h.of_opaqueLeaf hleaf').2.symm.trans haccessed) nofun
    | reference haccessed' hsplit' hsecond =>
      obtain rfl := Option.some.inj (haccessed.symm.trans haccessed')
      obtain ⟨rfl, rfl⟩ := Prod.mk.inj (Except.ok.inj (hsplit.symm.trans hsplit'))
      exact htree _ _ _ _ hfirst hsecond
    | other hleaf' hnone => exact absurd (hnone.symm.trans haccessed) nofun
  | other hleaf hnone =>
    cases ht' with
    | boss hleaf' => exact absurd hleaf' hleaf
    | reference haccessed => exact absurd (hnone.symm.trans haccessed) nofun
    | other => rfl

end Unambiguous

/-! ### One atom in both modes -/

/-- The expansions of an atom outside flattened mode and in flattened mode. -/
inductive Flattens (r : Resolution) (atom : String) : Expansion → Expansion → Prop
  | requirement (text : String) : Flattens r atom (.requirement text) (.requirement text)
  | location (general detailed : String) :
      Flattens r atom (.location general detailed false) (.location general detailed true)
  | kept {leaf : String} (hopens : ∀ tree, r.Opens tree leaf (.leaf leaf)) :
      Flattens r atom (.tree (.leaf leaf)) (.tree (.leaf leaf))
  | opened {general detailed : String}
      (hopens : ∀ tree t, tree general detailed t → r.Opens tree atom t) :
      Flattens r atom (.tree (.leaf atom)) (.location general detailed true)

/-- An atom that stands for an item or a boss outside flattened mode does so in flattened mode,
unless it is a reference to an accessed location. -/
theorem ItemLike.flattened (hatom : r.ItemLike false atom)
    (haccessed : accessedLocation? atom = none) : r.ItemLike true atom where
  not_macro := hatom.not_macro
  not_conditional := hatom.not_conditional
  not_reference := by rw [locationReference?_true, hatom.not_reference, haccessed]; rfl
  not_predetermined := hatom.not_predetermined

namespace Unambiguous

variable (h : r.Unambiguous) {expansion expansion' : Expansion}

include h

omit h in
/-- The expansion of an atom is that of a meaning which it is known to have. -/
private theorem expansion_of_classified {flattened : Bool} {meaning : AtomMeaning}
    (hexpansion : r.expansion flattened atom = .ok expansion)
    (hclassified : r.Classified flattened atom meaning) :
    meaning.expansion r.data flattened atom = .ok expansion := by
  rw [← expansion_of_classify hclassified.classify_eq, hexpansion]

/-- A boss that is waived holds in both modes. One that is required is kept outside flattened mode
and replaced by the tree of its location in flattened mode. -/
private theorem flattens_boss {required : RequiredBoss} (hatom : r.ItemLike false atom)
    (hboss : r.data.bossOfRequirement? atom = some required)
    (hexpansion : r.expansion false atom = .ok expansion)
    (hexpansion' : r.expansion true atom = .ok expansion') :
    r.Flattens atom expansion expansion' := by
  have hatom' := hatom.flattened (h.of_bossOfRequirement? hboss).2
  have hmeaning := expansion_of_classified hexpansion (.boss hatom hboss)
  have hmeaning' := expansion_of_classified hexpansion' (.boss hatom' hboss)
  cases hcontains : r.notRequired.contains required.dungeon with
  | true =>
    simp only [bossMeaning, hcontains, if_true] at hmeaning hmeaning'
    cases hmeaning
    cases hmeaning'
    exact .kept fun tree => h.opens_terminal rfl
  | false =>
    have hkept : r.bossMeaning false required = .opaqueLeaf :=
      bossMeaning_eq_opaqueLeaf_iff.2 ⟨rfl, hcontains⟩
    have hsubstitute : r.bossMeaning true required = .substitute required.dungeon :=
      bossMeaning_eq_substitute_iff.2 ⟨rfl, hcontains, rfl⟩
    have hleaf := (Classified.boss hatom hboss).classify_eq
    rw [hkept] at hmeaning hleaf
    rw [hsubstitute] at hmeaning'
    cases hmeaning
    obtain ⟨detailed, hlocation, rfl⟩ :=
      AtomMeaning.expansion_substitute_eq_ok_iff.1 hmeaning'
    exact .opened fun tree t ht => .boss hleaf hboss hlocation ht

omit h in
/-- A plain item stays, unless it is a reference to an accessed location, which is replaced by the
tree of that location in flattened mode. -/
private theorem flattens_plainItem (hatom : r.ItemLike false atom)
    (hboss : r.data.bossOfRequirement? atom = none)
    (hexpansion : r.expansion false atom = .ok expansion)
    (hexpansion' : r.expansion true atom = .ok expansion') :
    r.Flattens atom expansion expansion' := by
  cases expansion_of_classified hexpansion (.plainItem hatom hboss)
  cases haccessed : accessedLocation? atom with
  | none =>
    cases expansion_of_classified hexpansion' (.plainItem (hatom.flattened haccessed) hboss)
    have hleaf := (Classified.plainItem hatom hboss).classify_eq
    refine .kept fun tree => .other ?_ haccessed
    rw [hleaf]
    nofun
  | some location =>
    have hreference : locationReference? true atom = some location := by
      rw [locationReference?_true, hatom.not_reference, haccessed]
      rfl
    obtain ⟨meaning', hclassified', hmeaning'⟩ := expansion_eq_ok_iff.1 hexpansion'
    obtain ⟨general, detailed, hsplit, rfl⟩ :=
      hclassified'.exists_split hatom.not_macro hatom.not_conditional hreference
    cases hmeaning'
    exact .opened fun tree t ht => .reference haccessed hsplit ht

/-- An atom that has an expansion in both modes is expanded alike, unless it is kept for a boss or
is a reference to an accessed location. -/
theorem flattens (hexpansion : r.expansion false atom = .ok expansion)
    (hexpansion' : r.expansion true atom = .ok expansion') :
    r.Flattens atom expansion expansion' := by
  obtain ⟨meaning, hclassified, hmeaning⟩ := expansion_eq_ok_iff.1 hexpansion
  cases hclassified with
  | macroText hdefined =>
    cases hmeaning
    cases expansion_of_classified hexpansion' (.macroText hdefined)
    exact .requirement _
  | @conditional conditional hdefined hparse =>
    have hmeaning' := expansion_of_classified hexpansion' (.conditional hdefined hparse)
    cases hholds : conditional.holds r.settings <;>
    · rw [hholds] at hmeaning hmeaning'
      cases hmeaning
      cases hmeaning'
      exact .kept fun tree => h.opens_terminal rfl
  | @otherLocation location _ _ hdefined hparse hreference hsplit =>
    have hreference' : locationReference? true atom = some location := by
      rw [locationReference?_true, hreference, Option.some_or]
    cases hmeaning
    cases expansion_of_classified hexpansion'
      (.otherLocation hdefined hparse hreference' hsplit)
    exact .location _ _
  | @predetermined outcome hdefined hparse hreference hitem =>
    have haccessed : accessedLocation? atom = none := by
      cases haccessed : accessedLocation? atom with
      | none => rfl
      | some location =>
        exact absurd (hitem.symm.trans (h.classify_eq_none haccessed)) nofun
    have hreference' : locationReference? true atom = none := by
      rw [locationReference?_true, hreference, haccessed]
      rfl
    have hmeaning' := expansion_of_classified hexpansion'
      (.predetermined hdefined hparse hreference' hitem)
    cases outcome <;>
    · cases hmeaning
      cases hmeaning'
      exact .kept fun tree => h.opens_terminal rfl
  | boss hatom hboss => exact h.flattens_boss hatom hboss hexpansion hexpansion'
  | plainItem hatom hboss => exact flattens_plainItem hatom hboss hexpansion hexpansion'

end Unambiguous

/-! ### Derivations in both modes -/

/-- The flattened trees of known locations. -/
def Flat (r : Resolution) (known : Question → Bool) (general detailed : String)
    (t : Requirement) : Prop :=
  known (.rawLocation general detailed true) = true ∧ r.Located known general detailed true t

open Classical in
/-- The tree that replaces a leaf in flattened mode, or the leaf itself if there is none. -/
noncomputable def opened (r : Resolution) (known : Question → Bool) (leaf : String) :
    Requirement :=
  if h : ∃ t, r.Opens (r.Flat known) leaf t then h.choose else .leaf leaf

/-- The second tree is the first one with its leaves replaced as in flattened mode. -/
def Opened (r : Resolution) (known : Question → Bool) (t t' : Requirement) : Prop :=
  t' = t.subst (r.opened known) ∧
    ∀ leaf ∈ t.leaves, r.Opens (r.Flat known) leaf (r.opened known leaf)

/-- Trees that are put together alike from parts with replaced leaves. -/
theorem opened_subst {literal : Requirement} {f f' : String → Requirement}
    (h : ∀ leaf ∈ literal.leaves, r.Opened known (f leaf) (f' leaf)) :
    r.Opened known (literal.subst f) (literal.subst f') := by
  constructor
  · rw [subst_subst]
    exact subst_congr fun leaf hleaf => (h leaf hleaf).1
  · intro leaf hleaf
    obtain ⟨replaced, hreplaced, hleaf⟩ := mem_leaves_subst.1 hleaf
    exact (h replaced hreplaced).2 leaf hleaf

namespace Unambiguous

variable (h : r.Unambiguous)

include h

/-- A leaf has been replaced when something replaces it. -/
theorem opened_leaf (hopens : r.Opens (r.Flat known) leaf t) : r.Opened known (.leaf leaf) t := by
  have hexists : ∃ t, r.Opens (r.Flat known) leaf t := ⟨t, hopens⟩
  have hopened : r.opened known leaf = t := by
    rw [Resolution.opened, dif_pos hexists]
    exact h.opens_unique (fun _ _ _ _ ht ht' => ht.2.unique ht'.2) hexists.choose_spec hopens
  constructor
  · rw [subst_leaf, hopened]
  · intro other hother
    obtain rfl : other = leaf := by simpa using hother
    rw [hopened]
    exact hopens

/-- An atom stands for the same text in both modes, or for none outside flattened mode. -/
theorem text_eq {text' : String} (hstands : r.StandsFor known false atom text)
    (hstands' : r.StandsFor known' true atom text') : text = text' := by
  cases hstands with
  | requirement hexpansion =>
    cases hstands' with
    | requirement hexpansion' =>
      cases h.flattens hexpansion hexpansion'
      rfl
    | location hexpansion' => cases h.flattens hexpansion hexpansion'
  | location hexpansion hknown hentry =>
    cases hstands' with
    | requirement hexpansion' => cases h.flattens hexpansion hexpansion'
    | location hexpansion' hknown' hentry' =>
      cases h.flattens hexpansion hexpansion'
      rw [Except.ok.inj (hentry.symm.trans hentry')]

/-- The trees of an atom in both modes. The induction is on the derivation outside flattened
mode, since the one in flattened mode goes on beyond its leaves. -/
theorem opened_of_resolves (ht : r.Resolves known false atom t)
    (ht' : r.Resolves known' true atom t') : r.Opened known' t t' := by
  induction ht generalizing t' with
  | finished hexpansion =>
    cases ht' with
    | finished hexpansion' =>
      cases h.flattens hexpansion hexpansion' with
      | kept hopens => exact h.opened_leaf (hopens _)
    | unfolded hstands' hbuild' hleaves' =>
      cases hstands' with
      | requirement hexpansion' => cases h.flattens hexpansion hexpansion'
      | location hexpansion' hknown' hentry' =>
        cases h.flattens hexpansion hexpansion' with
        | opened hopens =>
          exact h.opened_leaf (hopens _ _ ⟨hknown', _, hentry', _, _, hbuild', hleaves', rfl⟩)
  | unfolded hstands hbuild hleaves ih =>
    cases ht' with
    | finished hexpansion' =>
      cases hstands with
      | requirement hexpansion => cases h.flattens hexpansion hexpansion'
      | location hexpansion => cases h.flattens hexpansion hexpansion'
    | unfolded hstands' hbuild' hleaves' =>
      obtain rfl := h.text_eq hstands hstands'
      obtain rfl := Except.ok.inj (hbuild.symm.trans hbuild')
      exact opened_subst fun leaf hleaf => ih leaf hleaf (hleaves' leaf hleaf)

/-- The trees of a text in both modes. -/
theorem opened_of_builds (ht : r.Builds known false text t) (ht' : r.Builds known' true text t') :
    r.Opened known' t t' := by
  obtain ⟨literal, f, hbuild, hleaves, rfl⟩ := ht
  obtain ⟨literal', f', hbuild', hleaves', rfl⟩ := ht'
  obtain rfl := Except.ok.inj (hbuild.symm.trans hbuild')
  exact opened_subst fun leaf hleaf =>
    h.opened_of_resolves (hleaves leaf hleaf) (hleaves' leaf hleaf)

/-- The trees of a location in both modes. -/
theorem opened_of_located {general detailed : String}
    (ht : r.Located known general detailed false t)
    (ht' : r.Located known' general detailed true t') : r.Opened known' t t' := by
  obtain ⟨entry, hentry, hbuilds⟩ := ht
  obtain ⟨entry', hentry', hbuilds'⟩ := ht'
  obtain rfl := Except.ok.inj (hentry.symm.trans hentry')
  exact h.opened_of_builds hbuilds hbuilds'

end Unambiguous

end Resolution

/-! ### Answers in both modes -/

/-- In a faithful session, the flattened tree of a known location is what the session answers. -/
theorem Session.Faithful.outcome_of_flat {s : Session} (hs : s.Faithful)
    {general detailed : String} {t : Requirement}
    (h : s.resolution.Flat s.knows general detailed t) :
    (s.outcome (rawRequirementsForLocation general detailed true)).1 = .ok t := by
  obtain ⟨hknown, hlocated⟩ := h
  obtain ⟨answer, hget⟩ := Option.isSome_iff_exists.1 hknown
  obtain rfl : answer = t := (hs.located hget).unique hlocated
  rw [rawRequirementsForLocation, rawLocationTree_eq_answered, outcome_audited, answered,
    outcome_remember_of_some _ hget]

/-- After every run, when a location has an unsimplified tree in both modes, the flattened one is
the other one with trees in place of leaves: for a boss the flattened tree of the boss location of
its dungeon, for a reference to an accessed location the flattened tree of that location, and for
any other leaf the leaf itself. These flattened trees are what is answered once the location has
been asked for in flattened mode, and nothing else is answered before. -/
theorem flattened_tree_eq_subst {settings : Settings} {data : GameData} {start : Session}
    (hstart : (Session.start settings data).1 = .ok start) {operations : List Operation}
    {s later : Session} (hrun : start.after operations = s)
    (hunambiguous : s.resolution.Unambiguous) {general detailed : String} {t t' : Requirement}
    (ht : (s.outcome (rawRequirementsForLocation general detailed false)).1 = .ok t)
    (ht' : s.outcome (rawRequirementsForLocation general detailed true) = (.ok t', later)) :
    ∃ f : String → Requirement, t' = t.subst f ∧
      ∀ leaf ∈ t.leaves, s.resolution.Opens (fun general detailed u =>
        (later.outcome (rawRequirementsForLocation general detailed true)).1 = .ok u ∧
          ∀ u', (s.outcome (rawRequirementsForLocation general detailed true)).1 = .ok u' → u' = u)
        leaf (f leaf) := by
  subst hrun
  have hs := ((Faithful.of_start hstart).1.after operations).1
  have hraw' := outcome_of_audited ht'
  obtain ⟨heq, hopens⟩ := hunambiguous.opened_of_located
    (hs.outcome_rawLocationTree (outcome_of_audited (eq_outcome_of_fst ht)))
    (hs.outcome_rawLocationTree hraw')
  refine ⟨_, heq, fun leaf hleaf => (hopens leaf hleaf).mono fun general detailed u hflat => ?_⟩
  constructor
  · rw [rawLocationTree_eq_answered] at hraw'
    obtain ⟨hgrows, hlater, -⟩ := hs.outcome_answered hraw'
    refine hlater.outcome_of_flat ?_
    rwa [hgrows.resolution_eq]
  · intro u' hu'
    exact (hs.outcome_rawLocationTree (outcome_of_audited (eq_outcome_of_fst hu'))).unique hflat.2

/-- The chest of the keep. -/
theorem flattened_tree_eq_subst_keep :
    let t := join .and [.leaf "Can Defeat Warden",
      .leaf "Has Accessed Other Location \"Keep - Gate\"", .leaf "Keep Small Key x1"]
    let t' := join .and [join .and [join .or [.leaf "Lantern", .impossible], .leaf "Sword"],
      join .and [join .or [.leaf "Lantern", .impossible]], .leaf "Keep Small Key x1"]
    (Session.start {} keep).1 = .ok (initial {} keep) ∧
    (initial {} keep).resolution.Unambiguous ∧
    ((initial {} keep).outcome (rawRequirementsForLocation "Keep" "Chest" false)).1 = .ok t ∧
    ((initial {} keep).outcome (rawRequirementsForLocation "Keep" "Chest" true)).1 = .ok t' ∧
    ∃ f : String → Requirement, t' = t.subst f := by
  intro t t'
  have hstart : (Session.start {} keep).1 = .ok (initial {} keep) := start_of_validate {} rfl
  have hunambiguous : (initial {} keep).resolution.Unambiguous :=
    ⟨by decide +kernel, by decide +kernel, by decide +kernel⟩
  have ht : ((initial {} keep).outcome (rawRequirementsForLocation "Keep" "Chest" false)).1 =
      .ok t := by decide +kernel
  have ht' : ((initial {} keep).outcome (rawRequirementsForLocation "Keep" "Chest" true)).1 =
      .ok t' := by decide +kernel
  have hrun : (initial {} keep).after [] = initial {} keep := rfl
  obtain ⟨f, hf, -⟩ :=
    flattened_tree_eq_subst hstart hrun hunambiguous ht (eq_outcome_of_fst ht')
  exact ⟨hstart, hunambiguous, ht, ht', f, hf⟩

end SeedLogic
