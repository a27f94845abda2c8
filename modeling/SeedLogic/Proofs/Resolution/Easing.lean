import Mathlib.Control.Monad.Basic
import SeedLogic.Proofs.Resolution.Comparison
import SeedLogic.Proofs.Session.Runs

/-!
# Waived bosses and starting items

Marking more bosses as not required and granting more items at the start makes requirements easier
and nothing else: a tree that holds in the first state holds in the second one, whatever items are
held. The two trees need not have the same shape. Where an atom means something else in the second
state, it is either satisfied there or unsatisfiable in the first one, so the two states are
comparable.

## Main definitions

* `Resolution.Eases` : the second state waives more bosses and grants more items.

## Main results

* `Resolution.Eases.meaning` : one atom in both states.
* `Resolution.Eases.below` : the states are comparable, whatever items are held.
* `evaluate_of_eases` : trees that two sessions build.
-/

namespace SeedLogic

open Requirement Session

/-! ### Conditionals and predetermined items -/

/-- Conditionals test options only. -/
theorem Conditional.holds_congr {s s' : Settings} (h : s'.options = s.options) (c : Conditional) :
    c.holds s' = c.holds s := by
  rw [Conditional.holds, Conditional.holds]
  simp only [Settings.isEnabled, Settings.equals, Settings.contains, h]

namespace PredeterminedItems

variable {p p' : PredeterminedItems} {need : ItemRequirement}

/-- More starting items satisfy what fewer ones do. -/
theorem classify_eq_satisfied_mono
    (hstarting : ∀ item count, p.starting.get? item = some count →
      ∃ more, p'.starting.get? item = some more ∧ count ≤ more)
    (h : p.classify need = some .satisfied) : p'.classify need = some .satisfied := by
  obtain ⟨count, hcount, hle⟩ := classify_eq_satisfied_iff.1 h
  obtain ⟨more, hmore, hle'⟩ := hstarting _ _ hcount
  exact classify_eq_satisfied_iff.2 ⟨more, hmore, UInt32.le_trans hle hle'⟩

/-- A requirement that some items do not fix is not made unsatisfiable by other starting items. -/
theorem classify_of_eq_none (himpossible : p'.impossible = p.impossible)
    (h : p.classify need = none) :
    p'.classify need = none ∨ p'.classify need = some .satisfied := by
  have hlimit : (p.impossible.get? need.item).any (fun limit => limit ≤ need.count) = false := by
    rw [classify] at h
    split at h
    · cases h
    · split at h
      · cases h
      · next hlimit => exact Bool.eq_false_iff.2 hlimit
  rw [classify, himpossible, hlimit]
  split
  · exact Or.inr rfl
  · exact Or.inl rfl

end PredeterminedItems

namespace Resolution

/-! ### One atom in both states -/

/-- The second state has the tables, options and impossible items of the first one, waives all the
bosses that the first one waives, and grants at least its starting items. -/
structure Eases (r r' : Resolution) : Prop where
  data : r'.data = r.data
  options : r'.settings.options = r.settings.options
  unreachable : r'.predetermined.impossible = r.predetermined.impossible
  starting (item : String) (count : UInt32) : r.predetermined.starting.get? item = some count →
    ∃ more, r'.predetermined.starting.get? item = some more ∧ count ≤ more
  waived (dungeon : String) : r.notRequired.contains dungeon = true →
    r'.notRequired.contains dungeon = true

variable {r r' : Resolution} {flattened : Bool} {atom : String}

namespace Eases

variable (h : r.Eases r')

include h

/-- An atom that stands for an item or a boss still does, or is satisfied. -/
theorem itemLike (hatom : r.ItemLike flattened atom) :
    r'.ItemLike flattened atom ∨ r'.Classified flattened atom (.predetermined .satisfied) := by
  have hdefined : r'.data.macroText? atom = none := by rw [h.data, hatom.not_macro]
  rcases PredeterminedItems.classify_of_eq_none h.unreachable hatom.not_predetermined with
    hnone | hsatisfied
  · exact Or.inl ⟨hdefined, hatom.not_conditional, hatom.not_reference, hnone⟩
  · exact Or.inr (.predetermined hdefined hatom.not_conditional hatom.not_reference hsatisfied)

/-- A boss has the same meaning, unless it is waived in the second state. -/
theorem bossMeaning (boss : RequiredBoss) :
    r'.bossMeaning flattened boss = r.bossMeaning flattened boss ∨
      r'.bossMeaning flattened boss = .notRequired := by
  cases hwaived' : r'.notRequired.contains boss.dungeon with
  | true => exact Or.inr (by rw [Resolution.bossMeaning, if_pos hwaived'])
  | false =>
    have hwaived : r.notRequired.contains boss.dungeon = false := by
      cases hwaived : r.notRequired.contains boss.dungeon with
      | false => rfl
      | true =>
        rw [h.waived _ hwaived] at hwaived'
        cases hwaived'
    exact Or.inl (by rw [Resolution.bossMeaning, Resolution.bossMeaning, hwaived, hwaived'])

/-- An atom with different meanings in the two states is satisfied in the second one or
unsatisfiable in the first one. -/
theorem meaning {meaning meaning' : AtomMeaning} (hc : r.Classified flattened atom meaning)
    (hc' : r'.Classified flattened atom meaning') :
    meaning' = meaning ∨ meaning = .predetermined .unsatisfiable ∨
      meaning' = .predetermined .satisfied ∨ meaning' = .boss .notRequired := by
  have hdefined' : r'.data.macroText? atom = r.data.macroText? atom := by rw [h.data]
  cases hc with
  | macroText hdefined => exact Or.inl (hc'.unique (.macroText (hdefined'.trans hdefined)))
  | @conditional conditional hdefined hparse =>
    refine Or.inl (hc'.unique ?_)
    rw [← Conditional.holds_congr h.options]
    exact .conditional (hdefined'.trans hdefined) hparse
  | otherLocation hdefined hparse hreference hsplit =>
    exact Or.inl (hc'.unique (.otherLocation (hdefined'.trans hdefined) hparse hreference hsplit))
  | @predetermined outcome hdefined hparse hreference hitem =>
    cases outcome with
    | satisfied =>
      have hitem' := PredeterminedItems.classify_eq_satisfied_mono h.starting hitem
      exact Or.inl (hc'.unique (.predetermined (hdefined'.trans hdefined) hparse hreference hitem'))
    | unsatisfiable => exact Or.inr (Or.inl rfl)
  | @boss required hatom hboss =>
    rcases h.itemLike hatom with hatom' | hsatisfied
    · have hboss' : r'.data.bossOfRequirement? atom = some required := by rw [h.data, hboss]
      obtain rfl := hc'.unique (.boss hatom' hboss')
      rcases h.bossMeaning required with hsame | hwaived
      · exact Or.inl (congrArg AtomMeaning.boss hsame)
      · exact Or.inr (Or.inr (Or.inr (congrArg AtomMeaning.boss hwaived)))
    · exact Or.inr (Or.inr (Or.inl (hc'.unique hsatisfied)))
  | plainItem hatom hboss =>
    rcases h.itemLike hatom with hatom' | hsatisfied
    · have hboss' : r'.data.bossOfRequirement? atom = none := by rw [h.data, hboss]
      exact Or.inl (hc'.unique (.plainItem hatom' hboss'))
    · exact Or.inr (Or.inr (Or.inl (hc'.unique hsatisfied)))

/-- An atom is expanded alike in both states, unless it is satisfied in the second one or
unsatisfiable in the first one. -/
theorem below (held : String → Bool) : r.Below held r' where
  data := h.data
  expansion := by
    intro flattened atom e e' he he'
    obtain ⟨meaning, hc, hmeaning⟩ := expansion_eq_ok_iff.1 he
    obtain ⟨meaning', hc', hmeaning'⟩ := expansion_eq_ok_iff.1 he'
    rcases h.meaning hc hc' with rfl | rfl | rfl | rfl
    · rw [h.data, hmeaning] at hmeaning'
      obtain rfl := Except.ok.inj hmeaning'
      exact .same e
    · cases hmeaning
      exact .fails e' (evaluate_impossible held)
    · cases hmeaning'
      exact .holds e (evaluate_nothing held)
    · cases hmeaning'
      exact .holds e (evaluate_nothing held)

end Eases

end Resolution

/-! ### Trees that sessions build -/

/-- When the second of two faithful sessions has the same tables, options and impossible items,
waives all bosses that the first one waives and grants at least its starting items, the tree of a
requirement text in the second session holds whenever the one in the first session does. Every
session that is reached from a start is faithful, and so is every fresh one. -/
theorem evaluate_of_eases {s s' : Session} (hs : s.Faithful) (hs' : s'.Faithful)
    (h : s.resolution.Eases s'.resolution) {requirement : String} {flattened : Bool}
    {t t' : Requirement} (ht : (s.outcome (rawTree requirement flattened)).1 = .ok t)
    (ht' : (s'.outcome (rawTree requirement flattened)).1 = .ok t') (held : String → Bool) :
    t.evaluate held = true → t'.evaluate held = true :=
  (h.below held).evaluate_builds (hs.outcome_rawTree (eq_outcome_of_fst ht))
    (hs'.outcome_rawTree (eq_outcome_of_fst ht'))

/-- Settings with a lantern at the start. -/
def lanternGear : Settings := { startingGear := .ofList [("Lantern", 1)] }

/-- The warden of the keep, when she is required and when she is waived and a lantern is held at the
start. -/
theorem evaluate_of_eases_keep :
    let s := fresh {} keep {}
    let s' := fresh lanternGear keep (.ofNames ["Keep"])
    let t := join .and [join .and [join .or [.leaf "Lantern", .impossible], .leaf "Sword"],
      .leaf "Lantern"]
    let t' := join .and [.nothing, .nothing]
    s.Faithful ∧ s'.Faithful ∧ s.resolution.Eases s'.resolution ∧
      (s.outcome (rawTree "Can Defeat Warden & Lantern" true)).1 = .ok t ∧
      (s'.outcome (rawTree "Can Defeat Warden & Lantern" true)).1 = .ok t' ∧
      (t.evaluate (fun _ => true) = true → t'.evaluate (fun _ => true) = true) := by
  intro s s' t t'
  have hs : s.Faithful := .of_empty rfl rfl
  have hs' : s'.Faithful := .of_empty rfl rfl
  have hstarting : s'.predetermined.starting = s.predetermined.starting.insert "Lantern" 1 := by
    decide +kernel
  have hlantern : s.predetermined.starting.get? "Lantern" = none := by decide +kernel
  have heases : s.resolution.Eases s'.resolution :=
    { data := rfl
      options := rfl
      unreachable := by decide +kernel
      starting := fun item count hcount => by
        have hne : item ≠ "Lantern" := by
          rintro rfl
          exact absurd (hlantern.symm.trans hcount) nofun
        have hcount' : s'.predetermined.starting.get? item = some count := by
          rw [hstarting, Dict.get?_insert, if_neg hne]
          exact hcount
        exact ⟨count, hcount', UInt32.le_refl count⟩
      waived := fun dungeon hwaived => by cases hwaived }
  have ht : (s.outcome (rawTree "Can Defeat Warden & Lantern" true)).1 = .ok t := by
    decide +kernel
  have ht' : (s'.outcome (rawTree "Can Defeat Warden & Lantern" true)).1 = .ok t' := by
    decide +kernel
  exact ⟨hs, hs', heases, ht, ht', evaluate_of_eases hs hs' heases ht ht' fun _ => true⟩

end SeedLogic
