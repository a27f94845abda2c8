import SeedLogic.Data.JsonPrinter
import SeedLogic.Proofs.Text.Numerals

/-!
# Data on one line

A printed datum holds no line break: those inside texts are escaped, and the printer adds none. A
log to which one line is appended for each datum is therefore cut back into its data at the line
breaks.

## Main results

* `Json.newline_notMem_print` : a printed datum is one line.
-/

namespace SeedLogic.Json

/-- The digits of a number hold no line break. -/
theorem newline_notMem_decimal (n : Nat) : '\n' ∉ (Text.decimal n).toList :=
  fun h => absurd ((Text.isNumeral_decimal n).isDigit _ h) (by decide)

theorem newline_notMem_signedDecimal (value : Int) : '\n' ∉ (Text.signedDecimal value).toList := by
  cases value with
  | ofNat n => exact newline_notMem_decimal n
  | negSucc n => simpa [Text.signedDecimal] using newline_notMem_decimal (n + 1)

/-- The hexadecimal digits of an escape hold no line break. -/
theorem hexDigit_ne_newline (n : Nat) : hexDigit n ≠ '\n' := by
  have hdigits : ∀ c ∈ "0123456789abcdef".toList, c ≠ '\n' := by simp
  rw [hexDigit, List.getD_eq_getElem?_getD]
  cases hdigit : "0123456789abcdef".toList[n]? with
  | none => decide
  | some c => exact hdigits c (List.mem_of_getElem? hdigit)

/-- A line break is escaped, and no escape holds one. -/
theorem newline_notMem_escape (c : Char) : '\n' ∉ escape c := by
  unfold escape
  split
  -- The seven characters with an escape of their own come first.
  iterate 7 decide
  next hnewline _ _ =>
    split
    · simp [Ne.symm (hexDigit_ne_newline _)]
    · simpa [eq_comm] using hnewline

theorem newline_notMem_quote (text : String) : '\n' ∉ (quote text).toList := by
  simpa [quote] using fun c _ => newline_notMem_escape c

private theorem newline_notMem_intercalate {texts : List String}
    (h : ∀ text ∈ texts, '\n' ∉ text.toList) : '\n' ∉ (",".intercalate texts).toList := by
  rw [String.toList_intercalate, show ",".toList = [','] from rfl]
  induction texts with
  | nil => simp
  | cons text rest ih =>
    obtain ⟨htext, hrest⟩ := List.forall_mem_cons.1 h
    cases rest with
    | nil => simpa using htext
    | cons second rest =>
      have hlater := ih hrest
      rw [List.map_cons] at hlater
      rw [List.map_cons, List.map_cons, List.intercalate_cons_cons]
      simp [htext, hlater]

mutual

/-- A printed datum is one line. -/
theorem newline_notMem_print : (d : Datum) → '\n' ∉ (print d).toList
  | .null => by decide
  | .boolean true => by decide
  | .boolean false => by decide
  | .integer value => newline_notMem_signedDecimal value
  | .otherScalar => by decide
  | .text value => newline_notMem_quote value
  | .list items => by
    have hitems := newline_notMem_intercalate (newline_notMem_printItems items)
    simpa [print] using hitems
  | .table entries _ => by
    have hentries := newline_notMem_intercalate (newline_notMem_printEntries entries)
    simpa [print] using hentries

private theorem newline_notMem_printItems : (items : List Datum) →
    ∀ text ∈ printItems items, '\n' ∉ text.toList
  | [] => nofun
  | item :: rest => List.forall_mem_cons.2
      ⟨newline_notMem_print item, newline_notMem_printItems rest⟩

private theorem newline_notMem_printEntries : (entries : List (String × Datum)) →
    ∀ text ∈ printEntries entries, '\n' ∉ text.toList
  | [] => nofun
  | (key, value) :: rest => List.forall_mem_cons.2
      ⟨by simpa using ⟨newline_notMem_quote key, newline_notMem_print value⟩,
        newline_notMem_printEntries rest⟩

end

end SeedLogic.Json
