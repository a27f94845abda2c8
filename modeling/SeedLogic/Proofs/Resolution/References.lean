import SeedLogic.Proofs.Text.Numerals
import SeedLogic.Resolution

/-!
# References to locations

A reference to a location ends with a quote. So it carries no count, and as an item requirement it
would ask for one copy of the item with its whole text as name. The references to accessed locations
are those that flattened mode recognises beyond the others.

## Main definitions

* `accessedLocation?` : the references that are recognised in flattened mode only.

## Main results

* `quotedAfter?_eq_some_iff` : the form of a reference.
* `ItemRequirement.parse_of_quotedAfter?` : references read as item requirements.
* `Resolution.locationReference?_true` : the references of flattened mode.
-/

namespace SeedLogic

/-! ### Quotes -/

/-- A strip at the end accounts for the whole text. -/
theorem Text.stripEnd?_eq_some_iff {tail cs rest : List Char} :
    Text.stripEnd? tail cs = some rest ↔ cs = rest ++ tail := by
  rw [Text.stripEnd?, Option.map_eq_some_iff]
  constructor
  · rintro ⟨reversed, hstrip, rfl⟩
    have hcs := congrArg List.reverse (Text.strip?_eq_some_iff.1 hstrip)
    simpa using hcs
  · rintro rfl
    exact ⟨rest.reverse, Text.strip?_eq_some_iff.2 (by simp), List.reverse_reverse rest⟩

/-- A text is quoted when it stands between quotes, is not empty and holds no other quote. -/
theorem quoted?_eq_some_iff {quoted : String} {cs : List Char} :
    quoted? cs = some quoted ↔
      cs = '"' :: quoted.toList ++ ['"'] ∧ quoted.toList ≠ [] ∧ '"' ∉ quoted.toList := by
  constructor
  · intro h
    obtain ⟨opened, hopened, h⟩ := Option.bind_eq_some_iff.1 h
    obtain ⟨inner, hinner, h⟩ := Option.bind_eq_some_iff.1 h
    have hcs := Text.strip?_eq_some_iff.1 hopened
    rw [Text.stripEnd?_eq_some_iff.1 hinner] at hcs
    split at h
    next => cases h
    next hproper =>
      cases h
      simpa [hcs] using hproper
  · rintro ⟨rfl, hne, hquote⟩
    have hopened : Text.strip? ['"'] ('"' :: quoted.toList ++ ['"']) =
        some (quoted.toList ++ ['"']) := Text.strip?_eq_some_iff.2 rfl
    have hinner : Text.stripEnd? ['"'] (quoted.toList ++ ['"']) = some quoted.toList :=
      Text.stripEnd?_eq_some_iff.2 rfl
    have hproper : (quoted.toList.isEmpty || quoted.toList.contains '"') = false := by
      simp [hne, hquote]
    simp only [quoted?, hopened, hinner, hproper, Option.bind_eq_bind, Option.bind_some,
      Bool.false_eq_true, if_false, String.ofList_toList]

/-- A text is quoted after a lead when nothing but the lead stands before it. -/
theorem quotedAfter?_eq_some_iff {lead quoted : String} {cs : List Char} :
    quotedAfter? lead cs = some quoted ↔
      cs = lead.toList ++ '"' :: quoted.toList ++ ['"'] ∧ quoted.toList ≠ [] ∧
        '"' ∉ quoted.toList := by
  rw [quotedAfter?, Option.bind_eq_some_iff]
  constructor
  · rintro ⟨rest, hlead, hquoted⟩
    obtain ⟨rfl, hproper⟩ := quoted?_eq_some_iff.1 hquoted
    exact ⟨by rw [Text.strip?_eq_some_iff.1 hlead]; simp, hproper⟩
  · rintro ⟨rfl, hproper⟩
    exact ⟨_, Text.strip?_eq_some_iff.2 (List.append_assoc ..),
      quoted?_eq_some_iff.2 ⟨rfl, hproper⟩⟩

/-- A text that does not end with a digit asks for one copy of the item that it names. -/
theorem ItemRequirement.parse_of_getLast? {text : String} {c : Char}
    (hlast : text.toList.getLast? = some c) (hdigit : Text.digit? c = none) :
    ItemRequirement.parse text = ⟨text, 1⟩ := by
  suffices hnone : ItemRequirement.parse? text = none by
    rw [ItemRequirement.parse, hnone, Option.getD_none]
  rw [ItemRequirement.parse?]
  cases hcut : Text.cutLast? [' ', 'x'] text.toList with
  | none => rfl
  | some halves =>
    obtain ⟨name, digits⟩ := halves
    cases hcount : Text.numeral32? digits with
    | none => simp [hcount]
    | some count =>
      obtain ⟨⟨hdigits, hall⟩, -⟩ := Text.numeral32?_eq_some_iff.1 hcount
      rw [Text.eq_of_cutLast? hcut, List.getLast?_append, List.getLast?_eq_some_getLast hdigits,
        Option.some_or] at hlast
      obtain rfl := Option.some.inj hlast
      have hsome := Text.digit?_eq_some_iff.2 ⟨hall _ (List.getLast_mem hdigits), rfl⟩
      rw [hdigit] at hsome
      cases hsome

/-- A reference asks for one copy of the item that it names. -/
theorem ItemRequirement.parse_of_quotedAfter? {lead quoted text : String}
    (h : quotedAfter? lead text.toList = some quoted) :
    ItemRequirement.parse text = ⟨text, 1⟩ := by
  obtain ⟨htext, -⟩ := quotedAfter?_eq_some_iff.1 h
  have hlast : text.toList.getLast? = some '"' := by
    rw [htext, List.getLast?_append]
    rfl
  exact ItemRequirement.parse_of_getLast? hlast (by decide)

/-! ### Accessed locations -/

/-- The location named by a reference to an accessed location. -/
def accessedLocation? (atom : String) : Option String :=
  quotedAfter? "Has Accessed Other Location " atom.toList

/-- Flattened mode recognises the references to accessed locations as well. -/
theorem Resolution.locationReference?_true (atom : String) :
    locationReference? true atom =
      (locationReference? false atom).or (accessedLocation? atom) := by
  simp only [locationReference?, accessedLocation?]
  cases quotedAfter? "Can Access Item Location " atom.toList <;> rfl

end SeedLogic
