import SeedLogic.Item
import SeedLogic.Proofs.Text.Cuts
import SeedLogic.Proofs.Text.Numerals

/-!
# Counted items

A counted item is written as a name, the mark ` x` and a numeral. The name may hold the mark itself,
but a numeral holds no space, so the last mark of the text is the one between the name and the
numeral, and a text is written in this way by one name and one numeral only. What is read is
therefore exactly what is written. A numeral that does not fit in 32 bits, or no numeral at all,
leaves the whole text as the name of an item of which one copy is needed. Either way the item that
was read is read again from its own text.

## Main definitions

* `ItemRequirement.Writes` : texts that consist of a name and a numeral.

## Main results

* `ItemRequirement.Writes.length_le` : the mark before the numeral is the last one.
* `ItemRequirement.parse?_eq_some_iff` : which texts are read as counted items.
* `ItemRequirement.parse?_render` : a counted item is read back from its text.
* `ItemRequirement.counted_items_exact` : reading and writing of items.
-/

namespace SeedLogic.ItemRequirement

/-- The text consists of a nonempty name, the mark ` x` and a numeral. -/
structure Writes (text name digits : String) : Prop where
  text_eq : text = name ++ " x" ++ digits
  name_ne : name ≠ ""
  numeral : Text.IsNumeral digits.toList

/-! ### The mark before the numeral -/

/-- In front of characters without a space, no mark stands further right than the one before
them. -/
private theorem length_le_of_mark {name digits front back : List Char} (hdigits : ' ' ∉ digits)
    (h : name ++ [' ', 'x'] ++ digits = front ++ [' ', 'x'] ++ back) :
    front.length ≤ name.length := by
  simp only [List.append_assoc, List.cons_append, List.nil_append] at h
  rcases Text.split_at_char h with ⟨more, rfl⟩ | ⟨more, rfl, hmore⟩
  · simp
  · cases more with
    | nil => simp
    | cons c more =>
      rw [List.cons_append, List.cons.injEq] at hmore
      have hspace : ' ' ∈ 'x' :: digits := hmore.2 ▸ List.mem_append_right more List.mem_cons_self
      exact absurd (by simpa using hspace) hdigits

variable {text name digits : String}

private theorem Writes.space_notMem (h : Writes text name digits) : ' ' ∉ digits.toList :=
  fun hmem => absurd (h.numeral.isDigit ' ' hmem) (by decide)

private theorem Writes.toList_eq (h : Writes text name digits) :
    text.toList = name.toList ++ [' ', 'x'] ++ digits.toList := by
  rw [h.text_eq, String.toList_append, String.toList_append]
  rfl

/-- The mark before the numeral is the last one of the text. -/
theorem Writes.length_le (h : Writes text name digits) {front back : String}
    (hsplit : text = front ++ " x" ++ back) : front.length ≤ name.length := by
  have hchars := h.toList_eq
  rw [hsplit, String.toList_append, String.toList_append] at hchars
  exact length_le_of_mark h.space_notMem hchars.symm

/-- A text is cut into its name and its numeral. -/
theorem Writes.cutLast? (h : Writes text name digits) :
    Text.cutLast? [' ', 'x'] text.toList = some (name.toList, digits.toList) :=
  Text.cutLast?_eq_some_iff.2 ⟨h.toList_eq, fun _ _ hsplit =>
    length_le_of_mark h.space_notMem (h.toList_eq.symm.trans hsplit)⟩

/-- A text consists of one name and one numeral only. -/
theorem Writes.unique {other numeral : String} (h : Writes text name digits)
    (h' : Writes text other numeral) : name = other ∧ digits = numeral := by
  have hcut := h.cutLast?.symm.trans h'.cutLast?
  rw [Option.some.injEq, Prod.mk.injEq] at hcut
  exact ⟨String.toList_inj.1 hcut.1, String.toList_inj.1 hcut.2⟩

/-! ### Reading -/

/-- A text is read as a counted item exactly if it consists of the name of the item and a numeral
whose decimal value is the count. -/
theorem parse?_eq_some_iff {r : ItemRequirement} :
    parse? text = some r ↔ ∃ digits, Writes text r.item digits ∧
      Nat.ofDigitChars 10 digits.toList 0 = r.count.toNat := by
  rw [parse?]
  simp only [Option.bind_eq_bind, Option.bind_eq_some_iff, Prod.exists]
  constructor
  · rintro ⟨name, digits, hcut, count, hcount, h⟩
    split at h
    · cases h
    · next hname =>
      cases h
      obtain ⟨hnumeral, hvalue⟩ := Text.numeral32?_eq_some_iff.1 hcount
      refine ⟨.ofList digits, ⟨?_, ?_, by rwa [String.toList_ofList]⟩,
        by rwa [String.toList_ofList]⟩
      · rw [← String.toList_inj, Text.eq_of_cutLast? hcut]
        simp [String.toList_append]
      · simpa [← String.toList_inj] using hname
  · rintro ⟨digits, hwrites, hvalue⟩
    refine ⟨_, _, hwrites.cutLast?, r.count,
      Text.numeral32?_eq_some_iff.2 ⟨hwrites.numeral, hvalue⟩, ?_⟩
    rw [if_neg (fun hnil => hwrites.name_ne (String.toList_eq_nil_iff.1 hnil)),
      String.ofList_toList]

/-- A counted item is read back from its text. -/
theorem parse?_render {r : ItemRequirement} (h : r.item ≠ "") : parse? r.render = some r :=
  parse?_eq_some_iff.2 ⟨Text.decimal r.count.toNat,
    ⟨rfl, h, Text.isNumeral_decimal r.count.toNat⟩, Text.ofDigitChars_decimal r.count.toNat⟩

/-- A text that is not empty names an item. -/
theorem item_parse_ne (h : text ≠ "") : (parse text).item ≠ "" := by
  rw [parse]
  cases hread : parse? text with
  | none => exact h
  | some r =>
    obtain ⟨digits, hwrites, -⟩ := parse?_eq_some_iff.1 hread
    exact hwrites.name_ne

/-- A text is read as a counted item exactly if it is a nonempty name, followed by ` x` and by
digits whose decimal value is the count, which fits in 32 bits. There is one such name only, and no
other ` x` of the text stands behind it. A counted item with a name is read back from its text
whatever its count is, and the item that a text asks for, counted or not, is read again from the
text of this item. -/
theorem counted_items_exact :
    (∀ (text : String) (r : ItemRequirement), parse? text = some r ↔
      ∃ digits, Writes text r.item digits ∧
        Nat.ofDigitChars 10 digits.toList 0 = r.count.toNat) ∧
    (∀ text name digits, Writes text name digits →
      (∀ front back, text = front ++ " x" ++ back → front.length ≤ name.length) ∧
      ∀ other numeral, Writes text other numeral → other = name ∧ numeral = digits) ∧
    (∀ r : ItemRequirement, r.item ≠ "" → parse? r.render = some r) ∧
    ∀ text, text ≠ "" → parse (parse text).render = parse text := by
  refine ⟨fun text r => parse?_eq_some_iff,
    fun text name digits h => ⟨fun front back => h.length_le, fun other numeral h' => h'.unique h⟩,
    fun r => parse?_render, fun text h => ?_⟩
  rw [parse.eq_def (parse text).render, parse?_render (item_parse_ne h), Option.getD_some]

/-- A name that ends like a counted item, a numeral with leading zeros, and a numeral that is too
long for a count. -/
theorem counted_items_exact_arrows :
    parse? "Arrows x2 x007" = some ⟨"Arrows x2", 7⟩ ∧
    (Writes "Arrows x2 x007" "Arrows x2" "007" ∧
      "Arrows x2 x007" = "Arrows" ++ " x" ++ "2 x007" ∧ "Arrows".length ≤ "Arrows x2".length) ∧
    parse? (render ⟨"Arrows x2", 4294967295⟩) = some ⟨"Arrows x2", 4294967295⟩ ∧
    parse "Arrows x4294967296" = ⟨"Arrows x4294967296", 1⟩ ∧
    parse (parse "Arrows x4294967296").render = parse "Arrows x4294967296" := by
  obtain ⟨hread, hlast, hback, hagain⟩ := counted_items_exact
  have hwrites : Writes "Arrows x2 x007" "Arrows x2" "007" :=
    ⟨rfl, by decide, ⟨by decide, by simp⟩⟩
  exact ⟨(hread _ _).2 ⟨"007", hwrites, by decide⟩,
    ⟨hwrites, rfl, (hlast _ _ _ hwrites).1 "Arrows" "2 x007" rfl⟩,
    hback ⟨"Arrows x2", 4294967295⟩ (by decide), by decide +kernel, hagain _ (by decide)⟩

end SeedLogic.ItemRequirement
