/-!
# Lengths in bytes

Positions and lengths of texts count the bytes of the UTF-8 form.
-/

namespace SeedLogic.Text

/-- The number of bytes of the UTF-8 form. -/
def byteLength : List Char → Nat
  | [] => 0
  | c :: cs => c.utf8Size + byteLength cs

@[simp] theorem byteLength_nil : byteLength [] = 0 := rfl

@[simp] theorem byteLength_cons (c : Char) (cs : List Char) :
    byteLength (c :: cs) = c.utf8Size + byteLength cs := rfl

@[simp] theorem byteLength_append (as bs : List Char) :
    byteLength (as ++ bs) = byteLength as + byteLength bs := by
  induction as with
  | nil => simp
  | cons a as ih => simp [ih, Nat.add_assoc]

/-- The number of bytes is that of the core library. -/
theorem byteLength_toList (text : String) : byteLength text.toList = text.utf8ByteSize := by
  suffices h : ∀ cs : List Char, (String.ofList cs).utf8ByteSize = byteLength cs by
    rw [← h, String.ofList_toList]
  intro cs
  induction cs with
  | nil => rfl
  | cons c cs ih =>
    rw [String.ofList_cons, String.utf8ByteSize_append, String.utf8ByteSize_singleton, ih,
      byteLength_cons]

/-- A text is divided in one way only at a number of bytes. -/
theorem append_inj_of_byteLength {as bs cs ds : List Char} (h : as ++ cs = bs ++ ds)
    (hlength : byteLength as = byteLength bs) : as = bs ∧ cs = ds := by
  induction as generalizing bs with
  | nil =>
    cases bs with
    | nil => exact ⟨rfl, h⟩
    | cons b bs =>
      have hpositive := b.utf8Size_pos
      rw [byteLength_nil, byteLength_cons] at hlength
      omega
  | cons a as ih =>
    cases bs with
    | nil =>
      have hpositive := a.utf8Size_pos
      rw [byteLength_nil, byteLength_cons] at hlength
      omega
    | cons b bs =>
      rw [List.cons_append, List.cons_append, List.cons.injEq] at h
      obtain ⟨rfl, h⟩ := h
      rw [byteLength_cons, byteLength_cons] at hlength
      obtain ⟨rfl, rfl⟩ := ih h (Nat.add_left_cancel hlength)
      exact ⟨rfl, rfl⟩

/-- Of two ways to divide a text, the first part of the one goes on to that of the other unless it
has more bytes. -/
theorem exists_append_of_byteLength_le {as bs cs ds : List Char} (h : as ++ cs = bs ++ ds)
    (hlength : byteLength as ≤ byteLength bs) : ∃ gap, bs = as ++ gap ∧ cs = gap ++ ds := by
  rcases List.append_eq_append_iff.1 h with hgap | ⟨more, rfl, rfl⟩
  · exact hgap
  · rw [byteLength_append] at hlength
    cases more with
    | nil => exact ⟨[], by simp, by simp⟩
    | cons c more =>
      have hpositive := c.utf8Size_pos
      rw [byteLength_cons] at hlength
      omega

end SeedLogic.Text
