import SeedLogic.Proofs.Requirement.FirstOffence
import SeedLogic.Proofs.Requirement.Reading
import SeedLogic.Proofs.Resolution.Expansion
import SeedLogic.Proofs.Session.Queries

/-!
# Why expansions fail

The expansion of an atom may fail deep inside, after many other texts have been built and many
answers remembered. Its error still names a cause in the tables: a text that is malformed, a
reference that cannot be read, a location or a boss location that the tables do not have. The only
other cause is the limit for nested expansions. What has been remembered on the way plays no part.

## Main definitions

* `GameData.Explains` : the tables bear out an error.

## Main results

* `Session.of_outcome_buildWith_error` : a build fails since its text or an atom does.
* `Session.explains_of_expandAtom` : the errors of expansions.
* `GameData.Explains.noBossLocation`, `GameData.Explains.noLocation` : what two of the errors say.
-/

namespace SeedLogic

open Requirement

/-! ### Builds that fail -/

namespace Session

section Build

variable {I : Session → Prop} {expand : String → Query Requirement} {s : Session} {e : LogicError}
  (hkeeps : ∀ atom t, I t → I (t.outcome (expand atom)).2) (hs : I s)

include hkeeps hs

private theorem of_outcome_mapM_error {atoms : List String}
    (h : (s.outcome (atoms.mapM expand)).1 = .error e) :
    ∃ atom t, I t ∧ (t.outcome (expand atom)).1 = .error e := by
  induction atoms generalizing s with
  | nil => cases h
  | cons atom rest ih =>
    rw [List.mapM_cons] at h
    rcases of_outcome_bind_error h with hatom | ⟨r, t, hatom, hrest⟩
    · exact ⟨atom, s, hs, hatom⟩
    · have ht : I t := by
        have hkept := hkeeps atom s hs
        rwa [hatom] at hkept
      rcases of_outcome_bind_error hrest with hfails | ⟨rs, u, -, hpure⟩
      · exact ih ht hfails
      · cases hpure

/-- A build fails since its text is malformed or one of its atoms is not expanded, in a session that
the expansions before it have led to. -/
theorem of_outcome_buildWith_error {text : String}
    (h : (s.outcome (buildWith expand text)).1 = .error e) :
    build text = .error e ∨ ∃ atom t, I t ∧ (t.outcome (expand atom)).1 = .error e := by
  rcases build_verdict text with ⟨literal, -, hall⟩ | ⟨e', stopped, hbuild, hall⟩
  · rw [hall] at h
    have hleaves : s.outcome (literal.leaves.mapM expand) = (.error e, _) :=
      error_of_bind_const (substM_bind_const literal (pure ())).symm (eq_outcome_of_fst h)
    exact Or.inr (of_outcome_mapM_error hkeeps hs (congrArg Prod.fst hleaves))
  · rw [hall, OpenScopes.expandAll_bind_const] at h
    rcases of_outcome_bind_error h with hfails | ⟨kept, t, -, hthrow⟩
    · exact Or.inr (of_outcome_mapM_error hkeeps hs hfails)
    · obtain rfl : e' = e := Except.error.inj hthrow
      exact Or.inl hbuild

end Build

end Session

/-! ### Errors that the tables bear out -/

namespace GameData

/-- The tables bear out an error of an expansion. -/
inductive Explains (data : GameData) : LogicError → Prop
  | malformedText {text : String} {e : LogicError} (h : build text = .error e) : Explains data e
  | malformedReference {name : String} {e : LogicError} (h : splitLocationName name = .error e) :
      Explains data e
  | missingLocation {general detailed : String} {e : LogicError}
      (h : data.locationEntry general detailed = .error e) : Explains data e
  | missingBossLocation {dungeon : String} {e : LogicError}
      (h : data.bossLocation dungeon = .error e) : Explains data e
  | tooDeep (atom : String) : Explains data (.nestingTooDeep atom Session.maxExpansionDepth)

end GameData

variable {data : GameData} {flattened : Bool} {atom : String} {e : LogicError}

/-- An atom that has no expansion is a malformed reference, or stands for a boss without a
location. -/
theorem Resolution.explains_of_expansion {r : Resolution}
    (h : r.expansion flattened atom = .error e) : r.data.Explains e := by
  cases hclassify : r.classify flattened atom with
  | error e' =>
    rw [expansion, hclassify] at h
    obtain rfl : e' = e := Except.error.inj h
    obtain ⟨location, hsplit⟩ := exists_split_of_classify_error hclassify
    exact .malformedReference hsplit
  | ok meaning =>
    rw [expansion_of_classify hclassify] at h
    obtain ⟨dungeon, -, hlocation⟩ := AtomMeaning.of_expansion_eq_error h
    exact .missingBossLocation hlocation

namespace Session

/-- Expanding an atom leaves the tables as they are. -/
private theorem data_outcome_expandAtom (depth : Nat) (flattened : Bool) (atom : String)
    (s : Session) (hs : s.data = data) :
    (s.outcome (expandAtom depth flattened atom)).2.data = data :=
  (congrArg (fun view => view.data) (onlyReports_expandAtom depth flattened atom s).1).trans hs

section Depth

variable {s : Session} {depth : Nat} (hs : s.data = data)
  (hexpand : ∀ {s : Session}, s.data = data → ∀ {flattened : Bool} {atom : String}
    {e : LogicError}, (s.outcome (expandAtom depth flattened atom)).1 = .error e → data.Explains e)

include hs hexpand

private theorem explains_of_buildWith {text : String}
    (h : (s.outcome (buildWith (expandAtom depth flattened) text)).1 = .error e) :
    data.Explains e := by
  rcases of_outcome_buildWith_error (I := fun t => t.data = data)
    (data_outcome_expandAtom depth flattened) hs h with hbuild | ⟨atom, t, ht, hatom⟩
  · exact .malformedText hbuild
  · exact hexpand ht hatom

private theorem explains_of_rawLocationWith {general detailed : String}
    (h : (s.outcome (rawLocationWith (expandAtom depth) general detailed flattened)).1 = .error e) :
    data.Explains e := by
  obtain ⟨-, hlocation⟩ := of_outcome_remember_error _ h
  rw [outcome_bind_of_ok _ (outcome_get s)] at hlocation
  rcases of_outcome_bind_error hlocation with hentry | ⟨entry, t, hentry, hbuild⟩
  · rw [outcome_lift] at hentry
    exact .missingLocation (hs ▸ hentry)
  · rw [outcome_lift] at hentry
    obtain rfl : s = t := (Prod.mk.inj hentry).2
    exact explains_of_buildWith hs hexpand hbuild

end Depth

/-- The error of an expansion, however deep it arises, is borne out by the tables. -/
theorem explains_of_expandAtom {s : Session} (hs : s.data = data) {depth : Nat}
    (h : (s.outcome (expandAtom depth flattened atom)).1 = .error e) : data.Explains e := by
  induction depth generalizing s flattened atom e with
  | zero =>
    rw [outcome_expandAtom_zero] at h
    cases hexpansion : s.resolution.expansion flattened atom with
    | error e' =>
      rw [hexpansion] at h
      cases h
      exact hs ▸ Resolution.explains_of_expansion hexpansion
    | ok expansion =>
      rw [hexpansion] at h
      cases expansion with
      | tree r => cases h
      | requirement text =>
        cases h
        exact .tooDeep atom
      | location general detailed mode =>
        cases h
        exact .tooDeep atom
  | succ depth ih =>
    rw [outcome_expandAtom_succ] at h
    cases hexpansion : s.resolution.expansion flattened atom with
    | error e' =>
      rw [hexpansion] at h
      cases h
      exact hs ▸ Resolution.explains_of_expansion hexpansion
    | ok expansion =>
      rw [hexpansion] at h
      cases expansion with
      | tree r => cases h
      | requirement text => exact explains_of_buildWith hs (fun ht => ih ht) h
      | location general detailed mode => exact explains_of_rawLocationWith hs (fun ht => ih ht) h

end Session

/-! ### What an error says -/

/-- Whether an error is that of a malformed text. -/
def LogicError.isOfText : LogicError → Bool
  | .unbalancedParentheses .. | .mixedConnectives .. | .missingConnective .. | .nestingTooDeep .. =>
    true
  | _ => false

private theorem isOfText_of_fault? {requirement : String} {scopes : OpenScopes}
    {placed : PlacedToken} (h : scopes.fault? requirement placed = some e) : e.isOfText = true := by
  obtain ⟨token, position⟩ := placed
  cases token <;> simp only [OpenScopes.fault?] at h <;> repeat' split at h
  all_goals cases h
  all_goals rfl

/-- A text that cannot be built is malformed. -/
theorem isOfText_of_build {requirement : String} (h : build requirement = .error e) :
    e.isOfText = true := by
  have hreadAll (scopes : OpenScopes) (placed : List PlacedToken)
      (hread : scopes.readAll requirement placed = .error e) : e.isOfText = true := by
    induction placed generalizing scopes with
    | nil => cases hread
    | cons first rest ih =>
      cases hfault : scopes.fault? requirement first with
      | some e' =>
        rw [OpenScopes.readAll_of_fault hfault] at hread
        cases hread
        exact isOfText_of_fault? hfault
      | none => exact ih _ ((OpenScopes.readAll_of_fits hfault).symm.trans hread)
  rw [OpenScopes.build_eq_readAll] at h
  cases hread : OpenScopes.readAll requirement {} (Token.tokenize requirement) with
  | error e' =>
    rw [hread] at h
    cases h
    exact hreadAll {} _ hread
  | ok final =>
    rw [hread, Except.bind, OpenScopes.finish] at h
    split at h
    · cases h
    · cases h
      rfl

theorem eq_malformedLocationName {name : String} (h : splitLocationName name = .error e) :
    e = .malformedLocationName name := by
  unfold splitLocationName at h
  split at h
  · cases h
  · exact (Except.error.inj h).symm

namespace GameData

variable {general detailed dungeon : String}

/-- A location is not found exactly when the tables do not have it. -/
theorem locationEntry_eq_error_iff :
    data.locationEntry general detailed = .error e ↔
      data.location? general detailed = none ∧ e = .unknownLocation general detailed := by
  rw [locationEntry]
  cases data.location? general detailed with
  | none => exact ⟨fun h => ⟨rfl, (Except.error.inj h).symm⟩, fun h => h.2 ▸ rfl⟩
  | some entry => exact ⟨nofun, nofun⟩

/-- A boss location is not found exactly when there is no override and no location of the dungeon
carries the boss flag. -/
theorem bossLocation_eq_error_iff :
    data.bossLocation dungeon = .error e ↔
      data.bossLocationOverrides.get? dungeon = none ∧
      (∀ detailed entry, data.location? dungeon detailed = some entry →
        entry.hasFlag FlagName.boss = false) ∧ e = .unknownBossLocation dungeon := by
  rw [bossLocation]
  cases data.bossLocationOverrides.get? dungeon with
  | some detailed => exact ⟨nofun, nofun⟩
  | none =>
    cases hfind : (data.locationsIn dungeon).entries.find? (·.2.hasFlag FlagName.boss) with
    | some found =>
      refine ⟨nofun, fun ⟨_, hnone, _⟩ => ?_⟩
      have hflag := hnone found.1 found.2
        (Dict.mem_entries_iff_get?.1 (List.mem_of_find?_eq_some hfind))
      exact absurd (List.find?_some hfind) (by simp [hflag])
    | none =>
      refine ⟨fun h => ⟨rfl, fun detailed entry hentry => ?_, (Except.error.inj h).symm⟩,
        fun h => h.2.2 ▸ rfl⟩
      exact Bool.eq_false_iff.2
        (List.find?_eq_none.1 hfind _ (Dict.mem_entries_of_get? hentry))

namespace Explains

/-- An error about a boss location says that there is none. -/
theorem noBossLocation (h : data.Explains (.unknownBossLocation dungeon)) :
    data.bossLocation dungeon = .error (.unknownBossLocation dungeon) := by
  cases h with
  | malformedText h => exact absurd (isOfText_of_build h) nofun
  | malformedReference h => exact absurd (eq_malformedLocationName h) nofun
  | missingLocation h => exact absurd (locationEntry_eq_error_iff.1 h).2 nofun
  | @missingBossLocation other _ h =>
    obtain rfl : dungeon = other := by
      simpa using (bossLocation_eq_error_iff.1 h).2.2
    exact h

/-- An error about a location says that there is none. -/
theorem noLocation (h : data.Explains (.unknownLocation general detailed)) :
    data.location? general detailed = none := by
  cases h with
  | malformedText h => exact absurd (isOfText_of_build h) nofun
  | malformedReference h => exact absurd (eq_malformedLocationName h) nofun
  | missingLocation h =>
    obtain ⟨hnone, heq⟩ := locationEntry_eq_error_iff.1 h
    cases heq
    exact hnone
  | missingBossLocation h => exact absurd (bossLocation_eq_error_iff.1 h).2.2 nofun

end Explains

end GameData

end SeedLogic
