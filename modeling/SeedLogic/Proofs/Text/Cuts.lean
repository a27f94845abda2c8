import SeedLogic.Text.Cut

/-!
# Where a text is cut

A text is cut at the first occurrence of a separator exactly if no occurrence stands further left,
and at the last one exactly if none stands further right. Reversing the text exchanges the two.

## Main results

* `Text.cutFirst?_eq_some_iff` : cuts at the first occurrence.
* `Text.cutFirst?_singleton_eq_some_iff` : cuts at a character.
* `Text.cutLast?_eq_some_iff` : cuts at the last occurrence.
-/

namespace SeedLogic.Text

variable {sep cs before after : List Char}

/-- A character stands in one of two parts. -/
theorem split_at_char {c : Char} {as bs : List Char} (h : as ++ bs = before ++ c :: after) :
    (∃ more, as = before ++ c :: more) ∨ ∃ more, before = as ++ more ∧ bs = more ++ c :: after := by
  rcases List.append_eq_append_iff.1 h with ⟨more, hbefore, hbs⟩ | ⟨more, has, hcs⟩
  · exact .inr ⟨more, hbefore, hbs⟩
  · cases more with
    | nil => exact .inr ⟨[], by simpa using has.symm, by simpa using hcs.symm⟩
    | cons d more =>
      rw [List.cons_append, List.cons.injEq] at hcs
      exact .inl ⟨more, hcs.1 ▸ has⟩

/-- Wherever the separator occurs, the text is cut there or further left. -/
private theorem exists_cutFirst?_le (sep front back : List Char) :
    ∃ before after, cutFirst? sep (front ++ sep ++ back) = some (before, after) ∧
      before.length ≤ front.length := by
  induction front with
  | nil =>
    rw [List.nil_append]
    cases hcs : sep ++ back with
    | nil =>
      obtain ⟨rfl, -⟩ := List.append_eq_nil_iff.1 hcs
      exact ⟨[], [], rfl, Nat.le_refl _⟩
    | cons c cs =>
      have hstrip : strip? sep (c :: cs) = some back := strip?_eq_some_iff.2 hcs.symm
      exact ⟨[], back, by rw [cutFirst?, hstrip], Nat.le_refl _⟩
  | cons f front ih =>
    obtain ⟨before, after, hcut, hle⟩ := ih
    rw [List.cons_append, List.cons_append, cutFirst?]
    cases strip? sep (f :: (front ++ sep ++ back)) with
    | some rest => exact ⟨[], rest, rfl, Nat.zero_le _⟩
    | none => exact ⟨f :: before, after, by simp only [hcut, Option.map_some], Nat.succ_le_succ hle⟩

/-- A text is cut at the first occurrence of the separator. -/
theorem cutFirst?_eq_some_iff :
    cutFirst? sep cs = some (before, after) ↔ cs = before ++ sep ++ after ∧
      ∀ front back, cs = front ++ sep ++ back → before.length ≤ front.length := by
  constructor
  · intro h
    refine ⟨eq_of_cutFirst? h, ?_⟩
    rintro front back rfl
    obtain ⟨other, rest, hcut, hle⟩ := exists_cutFirst?_le sep front back
    obtain ⟨rfl, rfl⟩ : before = other ∧ after = rest := by simpa using h.symm.trans hcut
    exact hle
  · rintro ⟨rfl, hfirst⟩
    obtain ⟨other, rest, hcut, hle⟩ := exists_cutFirst?_le sep before after
    have heq := eq_of_cutFirst? hcut
    have hlength : before.length = other.length := Nat.le_antisymm (hfirst other rest heq) hle
    rw [List.append_assoc, List.append_assoc] at heq
    obtain ⟨rfl, hrest⟩ := List.append_inj heq hlength
    obtain rfl := List.append_cancel_left hrest
    exact hcut

/-- At a character, a text is cut when the character does not occur in the part before. -/
theorem cutFirst?_singleton_eq_some_iff {c : Char} :
    cutFirst? [c] cs = some (before, after) ↔ cs = before ++ c :: after ∧ c ∉ before := by
  rw [cutFirst?_eq_some_iff, List.append_assoc, List.singleton_append]
  refine and_congr_right ?_
  rintro rfl
  constructor
  · intro hfirst hc
    obtain ⟨front, back, rfl⟩ := List.append_of_mem hc
    have hle := hfirst front (back ++ c :: after) (by simp)
    rw [List.length_append, List.length_cons] at hle
    omega
  · intro hc front back hother
    rw [List.append_assoc, List.singleton_append] at hother
    rcases split_at_char hother with ⟨more, rfl⟩ | ⟨more, rfl, -⟩
    · exact absurd (by simp) hc
    · rw [List.length_append]
      exact Nat.le_add_right _ _

/-- A text is cut at the last occurrence of the separator. -/
theorem cutLast?_eq_some_iff :
    cutLast? sep cs = some (before, after) ↔ cs = before ++ sep ++ after ∧
      ∀ front back, cs = front ++ sep ++ back → front.length ≤ before.length := by
  have hcut : cutLast? sep cs = some (before, after) ↔
      cutFirst? sep.reverse cs.reverse = some (after.reverse, before.reverse) := by
    rw [cutLast?, Option.map_eq_some_iff]
    constructor
    · rintro ⟨⟨back, front⟩, h, heq⟩
      cases heq
      simpa using h
    · exact fun h => ⟨_, h, by simp⟩
  have hsplit (front back : List Char) :
      cs.reverse = back.reverse ++ sep.reverse ++ front.reverse ↔ cs = front ++ sep ++ back := by
    rw [← List.reverse_inj, List.reverse_reverse]
    simp
  rw [hcut, cutFirst?_eq_some_iff, hsplit]
  refine and_congr_right fun heq => ⟨fun h front back hother => ?_, fun h back front hother => ?_⟩
  -- Both cuts leave texts of the same length around the separator.
  · have hback := h back.reverse front.reverse ((hsplit front back).2 hother)
    have hlength := congrArg List.length (heq.symm.trans hother)
    simp only [List.length_append, List.length_reverse] at hlength hback
    omega
  · have hother' : cs = front.reverse ++ sep ++ back.reverse :=
      (hsplit _ _).1 (by simpa using hother)
    have hfront := h _ _ hother'
    have hlength := congrArg List.length (heq.symm.trans hother')
    simp only [List.length_append, List.length_reverse] at hlength hfront ⊢
    omega

end SeedLogic.Text
