import Mathlib.Data.List.DropRight
import Mathlib.Data.List.TakeWhile
import SeedLogic.Text.Blank

/-!
# What trimming leaves

Trimming divides a text into blanks, the trimmed text and blanks. What it leaves neither starts nor
ends with a blank, so that nothing is left to trim.

## Main results

* `Text.trim_trim` : trimmed text stays as it is.
* `Text.exists_blanks_of_trim` : a text is its trimmed text between blanks.
* `Text.not_blank_of_trim` : trimmed text has no blank at its ends.
-/

namespace SeedLogic.Text

variable {c : Char} {cs : List Char}

/-- A blank at the start is trimmed. -/
theorem trim_cons_of_blank (h : isBlank c = true) : trim (c :: cs) = trim cs := by
  rw [trim, trim, trimStart, List.dropWhile_cons_of_pos h, trimStart]

/-- Trimming leaves a part of the text. -/
theorem trim_sublist (cs : List Char) : (trim cs).Sublist cs :=
  (List.rdropWhile_prefix isBlank (trimStart cs)).sublist.trans (List.dropWhile_sublist isBlank)

private theorem trimStart_trim (cs : List Char) : trimStart (trim cs) = trim cs := by
  have hfront : trim cs <+: trimStart cs := List.rdropWhile_prefix isBlank (trimStart cs)
  rw [trimStart, List.dropWhile_eq_self_iff]
  intro hpos
  rw [hfront.getElem hpos]
  exact List.dropWhile_eq_self_iff.1 (List.dropWhile_idempotent isBlank cs)
    (Nat.lt_of_lt_of_le hpos hfront.length_le)

private theorem trimEnd_trim (cs : List Char) : trimEnd (trim cs) = trim cs :=
  List.rdropWhile_idempotent isBlank (trimStart cs)

/-- Trimmed text stays as it is. -/
theorem trim_trim (cs : List Char) : trim (trim cs) = trim cs := by
  rw [trim.eq_def (trim cs), trimStart_trim, trimEnd_trim]

/-- A text is cut into the blanks before its trimmed text, this text and the blanks after it. -/
theorem exists_blanks_of_trim (cs : List Char) :
    ∃ after, (∀ c ∈ after, isBlank c = true) ∧
      cs = cs.takeWhile isBlank ++ trim cs ++ after := by
  refine ⟨((trimStart cs).reverse.takeWhile isBlank).reverse, fun c hc => ?_, ?_⟩
  · exact List.mem_takeWhile_imp (List.mem_reverse.1 hc)
  · rw [List.append_assoc, trim, trimEnd, ← List.reverse_append, List.takeWhile_append_dropWhile,
      List.reverse_reverse, trimStart, List.takeWhile_append_dropWhile]

private theorem any_head?_of_dropWhile {test : Char → Bool} (h : cs.dropWhile test = cs) :
    cs.head?.any test = false := by
  cases cs with
  | nil => rfl
  | cons c cs => simpa using List.dropWhile_eq_self_iff.1 h

/-- Trimmed text neither starts nor ends with a blank. -/
theorem not_blank_of_trim (cs : List Char) :
    (trim cs).head?.any isBlank = false ∧ (trim cs).getLast?.any isBlank = false := by
  refine ⟨any_head?_of_dropWhile (trimStart_trim cs), ?_⟩
  rw [← List.head?_reverse]
  exact any_head?_of_dropWhile (List.reverse_eq_iff.1 (trimEnd_trim cs))

end SeedLogic.Text
