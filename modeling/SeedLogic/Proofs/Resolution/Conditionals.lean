import Mathlib.Logic.ExistsUnique
import SeedLogic.Proofs.Resolution.Expansion
import SeedLogic.Proofs.Resolution.References
import SeedLogic.Proofs.Text.Cuts

/-!
# Tests of options

A conditional is written as the quoted name of an option and a keyword, followed by a quoted value
except when it asks whether the option is enabled. Names and values may hold keywords, and one
keyword begins another, but neither may hold a quote: the first quote that closes the name and the
first that opens the value fix how the atom is read. So the reader recognises what is written in
this way and nothing else, and it reads each atom in one way only. The keywords come in pairs of
opposite meaning, whatever the option is set to.

## Main definitions

* `Conditional.text` : how a conditional is written.
* `Conditional.WellFormed` : names and values that can be quoted.
* `Conditional.opposite` : the same test with the other keyword of its pair.

## Main results

* `Conditional.parse?_eq_some_iff` : the reader recognises what is written, and nothing else.
* `Conditional.holds_opposite` : the two keywords of a pair have opposite meanings.
* `Resolution.conditional_atoms` : how conditionals are classified.
-/

namespace SeedLogic

/-! ### Quoted text -/

/-- A text between quotes. -/
def quote (text : String) : String :=
  "\"" ++ text ++ "\""

/-- A text that can stand between quotes. -/
def Quotable (text : String) : Prop :=
  text.toList ≠ [] ∧ '"' ∉ text.toList

/-- A text is quoted after a lead when the lead and the quoted text are all there is. -/
theorem quotedAfter?_eq_some_iff_quote {lead quoted : String} {cs : List Char} :
    quotedAfter? lead cs = some quoted ↔ cs = (lead ++ quote quoted).toList ∧ Quotable quoted := by
  rw [quotedAfter?_eq_some_iff, Quotable]
  simp [quote]

/-- A lead without quotes is what stands before the first quote. So no text is quoted after two of
them, even if one begins the other. -/
theorem quotedAfter?_eq_none_of_ne (other : String) {lead quoted : String} {cs : List Char}
    (h : quotedAfter? lead cs = some quoted) (hlead : '"' ∉ lead.toList)
    (hother : '"' ∉ other.toList) (hne : other ≠ lead) : quotedAfter? other cs = none := by
  have hcut : ∀ {lead quoted : String}, quotedAfter? lead cs = some quoted → '"' ∉ lead.toList →
      Text.cutFirst? ['"'] cs = some (lead.toList, quoted.toList ++ ['"']) := by
    intro lead quoted h hlead
    rw [(quotedAfter?_eq_some_iff.1 h).1]
    exact Text.cutFirst?_singleton_eq_some_iff.2 ⟨by simp, hlead⟩
  rw [Option.eq_none_iff_forall_not_mem]
  intro quoted' h'
  have heq := (hcut h hlead).symm.trans (hcut h' hother)
  simp only [Option.some.injEq, Prod.mk.injEq, String.toList_inj] at heq
  exact hne heq.1.symm

/-! ### Writing and reading -/

namespace Comparison

/-- How a comparison is written after the name of the option. -/
def text : Comparison → String
  | .enabled => " Enabled"
  | .disabled => " Disabled"
  | .equals value => " Is " ++ quote value
  | .differs value => " Is Not " ++ quote value
  | .contains entry => " Contains " ++ quote entry
  | .lacks entry => " Does Not Contain " ++ quote entry

/-- The value to which the option is compared can be quoted. -/
def WellFormed : Comparison → Prop
  | .enabled => True
  | .disabled => True
  | .equals value => Quotable value
  | .differs value => Quotable value
  | .contains entry => Quotable entry
  | .lacks entry => Quotable entry

/-- The other comparison of the pair. -/
def opposite : Comparison → Comparison
  | .enabled => .disabled
  | .disabled => .enabled
  | .equals value => .differs value
  | .differs value => .equals value
  | .contains entry => .lacks entry
  | .lacks entry => .contains entry

end Comparison

namespace Conditional

/-- How a conditional is written. -/
def text (c : Conditional) : String :=
  "Option " ++ quote c.option ++ c.comparison.text

/-- The name of the option can be quoted, and so can the value. -/
structure WellFormed (c : Conditional) : Prop where
  option : Quotable c.option
  comparison : c.comparison.WellFormed

/-- The same test with the other keyword of its pair. -/
def opposite (c : Conditional) : Conditional :=
  { c with comparison := c.comparison.opposite }

/-- What follows a keyword between quotes is neither of the two keywords that stand alone. -/
private theorem comparison?_of_quotedAfter? {lead quoted : String} {tail : List Char}
    (h : quotedAfter? lead tail = some quoted) :
    comparison? tail =
      ((quotedAfter? " Is " tail).map .equals).or
        (((quotedAfter? " Is Not " tail).map .differs).or
          (((quotedAfter? " Contains " tail).map .contains).or
            ((quotedAfter? " Does Not Contain " tail).map .lacks))) := by
  have hquote : '"' ∈ tail := by simp [(quotedAfter?_eq_some_iff.1 h).1]
  have henabled : tail ≠ " Enabled".toList := by
    rintro rfl
    simp at hquote
  have hdisabled : tail ≠ " Disabled".toList := by
    rintro rfl
    simp at hquote
  rw [comparison?, if_neg henabled, if_neg hdisabled]
  simp only [Option.orElse_eq_orElse, Option.orElse_eq_or]

/-- A comparison is read from what is written for it, and from nothing else. -/
theorem comparison?_eq_some_iff {tail : List Char} {comparison : Comparison} :
    comparison? tail = some comparison ↔
      tail = comparison.text.toList ∧ comparison.WellFormed := by
  constructor
  · intro h
    rw [comparison?] at h
    split at h
    next htail =>
      cases h
      exact ⟨htail, trivial⟩
    next =>
    split at h
    next htail =>
      cases h
      exact ⟨htail, trivial⟩
    next =>
    simp only [Option.orElse_eq_orElse, Option.orElse_eq_or, Option.or_eq_some_iff,
      Option.map_eq_some_iff, quotedAfter?_eq_some_iff_quote] at h
    rcases h with ⟨value, hread, rfl⟩ | ⟨-, ⟨value, hread, rfl⟩ | ⟨-, ⟨value, hread, rfl⟩ |
      ⟨-, value, hread, rfl⟩⟩⟩
    all_goals exact hread
  · rintro ⟨rfl, hvalue⟩
    cases comparison with
    | enabled =>
      show comparison? " Enabled".toList = some .enabled
      simp only [comparison?, if_true]
    | disabled =>
      have henabled : " Disabled".toList ≠ " Enabled".toList := by simp
      show comparison? " Disabled".toList = some .disabled
      simp only [comparison?, if_neg henabled, if_true]
    | equals value =>
      have hread : quotedAfter? " Is " (Comparison.equals value).text.toList = some value :=
        quotedAfter?_eq_some_iff_quote.2 ⟨rfl, hvalue⟩
      rw [comparison?_of_quotedAfter? hread, hread, Option.map_some, Option.some_or]
    | differs value =>
      have hread : quotedAfter? " Is Not " (Comparison.differs value).text.toList = some value :=
        quotedAfter?_eq_some_iff_quote.2 ⟨rfl, hvalue⟩
      have his := quotedAfter?_eq_none_of_ne " Is " hread (by simp) (by simp) (by simp)
      rw [comparison?_of_quotedAfter? hread, hread, his, Option.map_none, Option.none_or,
        Option.map_some, Option.some_or]
    | contains entry =>
      have hread : quotedAfter? " Contains " (Comparison.contains entry).text.toList = some entry :=
        quotedAfter?_eq_some_iff_quote.2 ⟨rfl, hvalue⟩
      have his := quotedAfter?_eq_none_of_ne " Is " hread (by simp) (by simp) (by simp)
      have hisNot := quotedAfter?_eq_none_of_ne " Is Not " hread (by simp) (by simp) (by simp)
      rw [comparison?_of_quotedAfter? hread, hread, his, hisNot]
      rfl
    | lacks entry =>
      have hread : quotedAfter? " Does Not Contain " (Comparison.lacks entry).text.toList =
          some entry := quotedAfter?_eq_some_iff_quote.2 ⟨rfl, hvalue⟩
      have his := quotedAfter?_eq_none_of_ne " Is " hread (by simp) (by simp) (by simp)
      have hisNot := quotedAfter?_eq_none_of_ne " Is Not " hread (by simp) (by simp) (by simp)
      have hcontains := quotedAfter?_eq_none_of_ne " Contains " hread (by simp) (by simp) (by simp)
      rw [comparison?_of_quotedAfter? hread, hread, his, hisNot, hcontains]
      rfl

/-- A conditional is read from what is written for it, and from nothing else. -/
theorem parse?_eq_some_iff {atom : String} {c : Conditional} :
    parse? atom = some c ↔ c.WellFormed ∧ c.text = atom := by
  constructor
  · intro h
    simp only [parse?, Option.bind_eq_bind, Option.bind_eq_some_iff, Prod.exists] at h
    obtain ⟨rest, hlead, option, tail, hcut, h⟩ := h
    obtain ⟨rfl, hquote⟩ := Text.cutFirst?_singleton_eq_some_iff.1 hcut
    split at h
    next => cases h
    next hne =>
    obtain ⟨comparison, hcomparison, heq⟩ := Option.bind_eq_some_iff.1 h
    cases heq
    obtain ⟨rfl, hvalue⟩ := comparison?_eq_some_iff.1 hcomparison
    have hoption : Quotable (.ofList option) := by simpa [Quotable, hquote] using hne
    refine ⟨⟨hoption, hvalue⟩, ?_⟩
    rw [← String.toList_inj, Text.strip?_eq_some_iff.1 hlead]
    simp [text, quote]
  · rintro ⟨⟨⟨hne, hquote⟩, hvalue⟩, rfl⟩
    have hlead : Text.strip? "Option \"".toList c.text.toList =
        some (c.option.toList ++ '"' :: c.comparison.text.toList) :=
      Text.strip?_eq_some_iff.2 (by simp [text, quote])
    have hcut : Text.cutFirst? ['"'] (c.option.toList ++ '"' :: c.comparison.text.toList) =
        some (c.option.toList, c.comparison.text.toList) :=
      Text.cutFirst?_singleton_eq_some_iff.2 ⟨rfl, hquote⟩
    have hcomparison : comparison? c.comparison.text.toList = some c.comparison :=
      comparison?_eq_some_iff.2 ⟨rfl, hvalue⟩
    simp only [parse?, hlead, hcut, hne, hcomparison, Option.bind_eq_bind, Option.bind_some,
      List.isEmpty_iff, if_false, String.ofList_toList]

/-- An atom is written for one conditional at most. -/
theorem eq_of_text_eq {c d : Conditional} (hc : c.WellFormed) (hd : d.WellFormed)
    (h : c.text = d.text) : c = d := by
  have hread := parse?_eq_some_iff.2 ⟨hc, h⟩
  rw [parse?_eq_some_iff.2 ⟨hd, rfl⟩] at hread
  exact (Option.some.inj hread).symm

/-! ### Opposites -/

/-- The opposite of a conditional names the same option and quotes the same value. -/
theorem WellFormed.opposite {c : Conditional} (h : c.WellFormed) : c.opposite.WellFormed := by
  refine ⟨h.option, ?_⟩
  have hvalue := h.comparison
  rw [Conditional.opposite]
  cases hcase : c.comparison <;> rw [hcase] at hvalue <;> exact hvalue

/-- The two keywords of a pair have opposite meanings, whatever the option is set to. -/
theorem holds_opposite (c : Conditional) (s : Settings) : c.opposite.holds s = !c.holds s := by
  rw [opposite, holds, holds]
  cases c.comparison with
  | enabled => rfl
  | disabled => exact (Bool.not_not _).symm
  | equals value => rfl
  | differs value => exact (Bool.not_not _).symm
  | contains entry => rfl
  | lacks entry => exact (Bool.not_not _).symm

end Conditional

/-! ### Classification -/

/-- An atom that names no macro is classified as a test of an option exactly if it is written as
one, and by the truth of that test. -/
theorem Resolution.classify_eq_conditional_iff {r : Resolution} {flattened : Bool} {atom : String}
    (hatom : r.data.macroText? atom = none) {value : Bool} :
    r.classify flattened atom = .ok (.conditional value) ↔
      ∃ c : Conditional, c.WellFormed ∧ c.text = atom ∧ c.holds r.settings = value := by
  rw [classify_eq_ok_iff]
  constructor
  · intro h
    cases h with
    | @conditional c _ hparse =>
      obtain ⟨hc, htext⟩ := Conditional.parse?_eq_some_iff.1 hparse
      exact ⟨c, hc, htext, rfl⟩
  · rintro ⟨c, hc, htext, rfl⟩
    exact .conditional hatom (Conditional.parse?_eq_some_iff.2 ⟨hc, htext⟩)

/-- Atoms that name no macro are classified as tests of options exactly if they are written as such,
which determines the test. Under any settings the two atoms of a pair have opposite values. -/
theorem Resolution.conditional_atoms (r : Resolution) (flattened : Bool) :
    (∀ atom, r.data.macroText? atom = none →
      ((∃ value, r.classify flattened atom = .ok (.conditional value)) ↔
        ∃! c : Conditional, c.WellFormed ∧ c.text = atom)) ∧
    ∀ c : Conditional, c.WellFormed → r.data.macroText? c.text = none →
      r.data.macroText? c.opposite.text = none →
      r.classify flattened c.text = .ok (.conditional (c.holds r.settings)) ∧
      r.classify flattened c.opposite.text = .ok (.conditional (!c.holds r.settings)) := by
  refine ⟨fun atom hatom => ?_, fun c hc hatom hopposite => ?_⟩
  · constructor
    · rintro ⟨value, hvalue⟩
      obtain ⟨c, hc, htext, -⟩ := (classify_eq_conditional_iff hatom).1 hvalue
      refine ⟨c, ⟨hc, htext⟩, ?_⟩
      rintro d ⟨hd, hother⟩
      exact Conditional.eq_of_text_eq hd hc (hother.trans htext.symm)
    · rintro ⟨c, ⟨hc, htext⟩, -⟩
      exact ⟨c.holds r.settings, (classify_eq_conditional_iff hatom).2 ⟨c, hc, htext, rfl⟩⟩
  · exact ⟨(classify_eq_conditional_iff hatom).2 ⟨c, hc, rfl, rfl⟩,
      (classify_eq_conditional_iff hopposite).2
        ⟨c.opposite, hc.opposite, rfl, c.holds_opposite r.settings⟩⟩

/-- A value may hold a keyword. -/
theorem Resolution.conditional_atoms_weapons :
    let r : Resolution :=
      { data := { macros := .ofList [("Can Fight", "Option \"weapons\" Contains \"Sword\"")] }
        settings := { options := .ofList [("weapons", .choice "Sword Is Optional")] }
        predetermined := {}
        notRequired := {} }
    let c : Conditional := ⟨"weapons", .differs "Sword Is Optional"⟩
    c.WellFormed ∧ (∃! d : Conditional, d.WellFormed ∧ d.text = c.text) ∧
      r.classify true c.text = .ok (.conditional false) ∧
      r.classify true c.opposite.text = .ok (.conditional true) := by
  intro r c
  have hc : c.WellFormed := ⟨⟨by decide, by decide⟩, ⟨by decide, by decide⟩⟩
  have hatom : r.data.macroText? c.text = none := by decide +kernel
  have hopposite : r.data.macroText? c.opposite.text = none := by decide +kernel
  have hholds : c.holds r.settings = false := by decide +kernel
  obtain ⟨hrecognised, hpair⟩ := conditional_atoms r true
  obtain ⟨htext, hother⟩ := hpair c hc hatom hopposite
  refine ⟨hc, (hrecognised c.text hatom).1 ⟨_, htext⟩, ?_, ?_⟩
  · rw [hholds] at htext
    exact htext
  · rw [hholds] at hother
    exact hother

end SeedLogic
