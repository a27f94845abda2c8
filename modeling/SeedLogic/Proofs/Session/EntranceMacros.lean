import Mathlib.Control.Monad.Basic
import SeedLogic.Proofs.Requirement.NormalForm
import SeedLogic.Proofs.Requirement.Tokens
import SeedLogic.Proofs.Resolution.Derivation
import SeedLogic.Proofs.Session.Runs
import SeedLogic.Proofs.Tables.Integrity

/-!
# Macros of entrances

The requirements of an entrance are those of the text that consists of the name of its macro. If
this name is read as one atom, the atom is found among the macros and replaced by the tree of their
text, one level deeper. The integrity check finds every macro under its whole name, but a name may
hold structural characters or end with a blank. Such a name is taken apart, and its parts need not
be macros.

## Main definitions

* `harbour` : tables with an entrance whose macro is read as one atom.
* `isles` : tables with an entrance whose macro is taken apart.

## Main results

* `Session.outcome_buildWith_macroName` : the name of a macro, read as a text.
* `Session.Faithful.outcome_requirementsForEntrance_of_raw` : requirements of entrances.
* `entrance_requirements_of_macroText` : requirements of entrances after a run.
* `isles_requirements_ne_macroText` : an entrance without the requirements of its macro.
-/

namespace SeedLogic

open Requirement Session

/-! ### Names of macros as texts -/

/-- A word is built from the tree of the only atom in it. -/
theorem Requirement.buildWith_of_isWord {m : Type → Type} [Monad m] {text : String}
    (h : Token.IsWord text) (expand : String → ExceptT LogicError m Requirement) :
    buildWith expand text = expand text >>= fun t => pure (join .and [t]) := by
  have htokens := Token.map_token_tokenize_eq_atom_iff.2 h
  obtain ⟨⟨token, position⟩, hplaced, htoken⟩ := List.map_eq_singleton_iff.1 htokens
  obtain rfl : token = .atom text := htoken
  rw [buildWith, hplaced]
  rfl

namespace Session

variable {s : Session} {name text : String} {flattened : Bool} {depth : Nat}

/-- A macro is replaced by the tree of its text. -/
theorem expansion_of_macroText? (h : s.data.macroText? name = some text) :
    s.resolution.expansion flattened name = .ok (.requirement text) :=
  Resolution.expansion_eq_ok_iff.2 ⟨_, .macroText h, rfl⟩

/-- A macro is replaced one level deeper. -/
theorem outcome_expandAtom_of_macroText (hdefined : s.data.macroText? name = some text) :
    s.outcome (expandAtom (depth + 1) flattened name) =
      s.outcome (buildWith (expandAtom depth flattened) text) := by
  rw [outcome_expandAtom_succ, expansion_of_macroText? hdefined]

/-- If the name of a macro is read as one atom, its tree is that of the text of the macro, which is
built one level deeper. -/
theorem outcome_buildWith_macroName (hword : Token.IsWord name)
    (hdefined : s.data.macroText? name = some text) :
    s.outcome (buildWith (expandAtom (depth + 1) flattened) name) =
      s.outcome (buildWith (expandAtom depth flattened) text >>= fun raw =>
        pure (join .and [raw])) := by
  rw [buildWith_of_isWord hword, outcome_bind, outcome_bind,
    outcome_expandAtom_of_macroText hdefined]

/-- When the tree of the name of the macro of an entrance can be built, the session gives its
simplification as the requirements of the entrance, whether it remembers them or not. -/
theorem Faithful.outcome_requirementsForEntrance_of_raw (hs : s.Faithful) {entrance : String}
    {raw : Requirement} (hname : s.data.macroNameOfEntrance entrance = .ok name)
    (hraw : (s.outcome (rawTree name false)).1 = .ok raw) :
    (s.outcome (requirementsForEntrance entrance)).1 = .ok (simplified raw) := by
  have hbuilds := hs.outcome_rawTree (eq_outcome_of_fst hraw)
  rw [requirementsForEntrance, fst_outcome_audited]
  refine fst_outcome_remember _ ?_ fun t ht => ?_
  · rw [outcome_bind_of_ok _ (outcome_get s), hname, outcome_bind_of_ok _ (outcome_lift s _),
      outcome_bind_of_ok _ (eq_outcome_of_fst hraw), outcome_pure]
  · have houtcome : s.outcome (answered (.entrance entrance)) = (.ok t, s) :=
      outcome_remember_of_some _ ht
    obtain ⟨name', raw', hname', hbuilds', rfl⟩ := hs.outcome_entrance houtcome
    obtain rfl := Except.ok.inj (hname.symm.trans hname')
    rw [hbuilds'.unique hbuilds]

end Session

/-- A node over a single tree is simplified to what the tree is simplified to. -/
theorem Session.simplified_join_singleton (connective : Connective) (raw : Requirement) :
    simplified (join connective [raw]) = simplified raw := by
  rw [simplified, simplify_join]
  exact combine_singleton ((simplify_eq_self_iff_normalForm ItemRequirement.implies).1 raw)

/-! ### Entrances of intact tables -/

/-- Tables with the entrance of a cave, whose macro refers to another macro. -/
def harbour : GameData where
  macros := .ofList [("Can Access Cave", "Can Dive & Lantern"), ("Can Dive", "Bombs")]
  entrances := [{
    internalName := "Cave Entrance"
    entranceZone := "Harbour"
    exitZone := "Cave"
    category := .cave
    entranceName := "Cave"
    exitName := "Cave"
    entryName := "Cave"
    macroSuffix := "Cave" }]

/-- After every run, an entrance has the simplified requirements of the text that consists of the
name of its macro, and the macro exists. The name is read as one atom exactly if it is a word. Then
the atom stands for the text of the macro, and the entrance has the simplified requirements of this
text, whenever they can be built one level deep. -/
theorem entrance_requirements_of_macroText {settings : Settings} {data : GameData} {start : Session}
    (hstart : (Session.start settings data).1 = .ok start) (operations : List Operation)
    {entry : EntranceEntry} (hentry : entry ∈ data.entrances) :
    let s := start.after operations
    let answer := (s.outcome (requirementsForEntrance entry.internalName)).1
    (∀ raw, (s.outcome (rawTree entry.macroName false)).1 = .ok raw →
      answer = .ok (simplified raw)) ∧
    ((Token.tokenize entry.macroName).map PlacedToken.token = [.atom entry.macroName] ↔
      Token.IsWord entry.macroName) ∧
    ∃ text, data.macroText? entry.macroName = some text ∧
      (Token.IsWord entry.macroName →
        s.resolution.expansion false entry.macroName = .ok (.requirement text) ∧
        ∀ raw, (s.outcome (buildWith (expandAtom (maxExpansionDepth - 1) false) text)).1 = .ok raw →
          answer = .ok (simplified raw)) := by
  intro s answer
  obtain ⟨hstarted, htables⟩ := Faithful.of_start hstart
  obtain ⟨hs, hafter⟩ := hstarted.after operations
  have hdata : s.data = data := hafter.trans htables
  have hintact : data.Intact := GameData.validate_eq_ok_iff.1 (validate_of_start hstart)
  have hname : s.data.macroNameOfEntrance entry.internalName = .ok entry.macroName := by
    rw [hdata]
    exact hintact.macroNameOfEntrance_eq hentry
  have hnamed {raw : Requirement} (hraw : (s.outcome (rawTree entry.macroName false)).1 = .ok raw) :
      answer = .ok (simplified raw) :=
    hs.outcome_requirementsForEntrance_of_raw hname hraw
  obtain ⟨text, htext⟩ := Option.isSome_iff_exists.1 (hintact.entranceMacros entry hentry)
  have hdefined : s.data.macroText? entry.macroName = some text := hdata ▸ htext
  refine ⟨fun _ => hnamed, Token.map_token_tokenize_eq_atom_iff, text, htext, fun hword =>
    ⟨expansion_of_macroText? hdefined, fun raw hraw => ?_⟩⟩
  have hjoin : (s.outcome (rawTree entry.macroName false)).1 = .ok (join .and [raw]) := by
    have hdepth : maxExpansionDepth = maxExpansionDepth - 1 + 1 := rfl
    rw [rawTree, hdepth, outcome_buildWith_macroName hword hdefined,
      outcome_bind_of_ok _ (eq_outcome_of_fst hraw), outcome_pure]
  rw [hnamed hjoin, simplified_join_singleton]

/-- The cave of the harbour, asked for a second time. -/
theorem entrance_requirements_of_macroText_harbour :
    let operations := [.requirementsForEntrance "Cave Entrance"]
    let s := (initial {} harbour).after operations
    let raw := join .and [join .and [.leaf "Bombs"], .leaf "Lantern"]
    (Session.start {} harbour).1 = .ok (initial {} harbour) ∧
      ∃ entry ∈ harbour.entrances, Token.IsWord entry.macroName ∧
        harbour.macroText? entry.macroName = some "Can Dive & Lantern" ∧
        (s.outcome (buildWith (expandAtom (maxExpansionDepth - 1) false) "Can Dive & Lantern")).1 =
          .ok raw ∧
        (s.outcome (requirementsForEntrance entry.internalName)).1 = .ok (simplified raw) := by
  intro operations s raw
  have hstart : (Session.start {} harbour).1 = .ok (initial {} harbour) :=
    start_of_validate {} (by decide +kernel)
  have hraw : (s.outcome
      (buildWith (expandAtom (maxExpansionDepth - 1) false) "Can Dive & Lantern")).1 = .ok raw := by
    decide +kernel
  refine ⟨hstart, _, List.mem_singleton_self _, by decide +kernel, rfl, hraw, ?_⟩
  obtain ⟨-, -, text, htext, hword⟩ :=
    entrance_requirements_of_macroText hstart operations (List.mem_singleton_self _)
  obtain rfl := Option.some.inj htext
  exact (hword (by decide +kernel)).2 raw hraw

/-! ### A name that is taken apart -/

/-- Tables with the entrance of a cave between two isles. The name of its macro holds a structural
character. -/
def isles : GameData where
  macros := .ofList [("Can Access Secret Cave Entrance on Mother & Child Isles", "Hookshot")]
  entrances := [{
    internalName := "Secret Cave Entrance on Mother & Child Isles"
    entranceZone := "Mother & Child Isles"
    exitZone := "Mother & Child Isles Secret Cave"
    category := .cave
    entranceName := "Mother & Child"
    exitName := "Mother & Child"
    entryName := "Mother & Child Isles Secret Cave"
    macroSuffix := "Secret Cave Entrance on Mother & Child Isles" }]

/-- The tables of the isles are intact, and the requirements of the macro can be built. Those of the
entrance are different: the name of the macro is taken apart, and its parts are kept as items. -/
theorem isles_requirements_ne_macroText :
    let s := initial {} isles
    let raw := join .and [.leaf "Hookshot"]
    let parts := join .and [.leaf "Can Access Secret Cave Entrance on Mother", .leaf "Child Isles"]
    (Session.start {} isles).1 = .ok s ∧
      ∃ entry ∈ isles.entrances, isles.macroText? entry.macroName = some "Hookshot" ∧
        (s.outcome (buildWith (expandAtom (maxExpansionDepth - 1) false) "Hookshot")).1 = .ok raw ∧
        (s.outcome (requirementsForEntrance entry.internalName)).1 = .ok parts ∧
        parts ≠ simplified raw :=
  ⟨start_of_validate {} (by decide +kernel), _, List.mem_singleton_self _, by decide +kernel⟩

end SeedLogic
