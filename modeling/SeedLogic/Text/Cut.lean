/-!
# Cutting text at a separator

Separators are nonempty lists of characters. A cut gives the text on either side of one
occurrence, the first or the last; `pieces` and `commaSpacePieces` cut at every occurrence.
-/

namespace SeedLogic.Text

/-- Removes `lead` from the start of the text, if the text begins with it. -/
def strip? : List Char → List Char → Option (List Char)
  | [], cs => some cs
  | _ :: _, [] => none
  | l :: ls, c :: cs => if l = c then strip? ls cs else none

/-- Removes `tail` from the end of the text, if the text ends with it. -/
def stripEnd? (tail cs : List Char) : Option (List Char) :=
  (strip? tail.reverse cs.reverse).map List.reverse

/-- The text before and after the first occurrence of the separator. -/
def cutFirst? (sep : List Char) : List Char → Option (List Char × List Char)
  | [] => if sep = [] then some ([], []) else none
  | c :: cs =>
    match strip? sep (c :: cs) with
    | some after => some ([], after)
    | none => (cutFirst? sep cs).map fun (before, after) => (c :: before, after)

/-- The text before and after the last occurrence of the separator. -/
def cutLast? (sep cs : List Char) : Option (List Char × List Char) :=
  (cutFirst? sep.reverse cs.reverse).map fun (after, before) => (before.reverse, after.reverse)

/-- The pieces between the occurrences of one character, empty pieces included. -/
def pieces (sep : Char) : List Char → List (List Char)
  | [] => [[]]
  | c :: cs =>
    match pieces sep cs with
    | [] => [[c]]
    | piece :: rest => if c = sep then [] :: piece :: rest else (c :: piece) :: rest

/-- The pieces between the occurrences of a comma and a space, empty pieces included. -/
def commaSpacePieces : List Char → List (List Char)
  | [] => [[]]
  | ',' :: ' ' :: cs => [] :: commaSpacePieces cs
  | c :: cs =>
    match commaSpacePieces cs with
    | [] => [[c]]
    | piece :: rest => (c :: piece) :: rest

/-- A successful strip accounts for the whole text. -/
theorem strip?_eq_some_iff {lead cs rest : List Char} :
    strip? lead cs = some rest ↔ cs = lead ++ rest := by
  induction lead generalizing cs with
  | nil => simp [strip?, eq_comm]
  | cons l ls ih =>
    cases cs with
    | nil => simp [strip?]
    | cons c cs =>
      by_cases h : l = c
      · subst h
        simp [strip?, ih]
      · simp [strip?, h, Ne.symm h]

/-- A cut at the first occurrence loses nothing but the separator. -/
theorem eq_of_cutFirst? {sep cs before after : List Char}
    (h : cutFirst? sep cs = some (before, after)) : cs = before ++ sep ++ after := by
  induction cs generalizing before with
  | nil =>
    rw [cutFirst?] at h
    split at h <;> simp_all
  | cons c cs ih =>
    rw [cutFirst?] at h
    split at h
    next rest hstrip =>
      simp only [Option.some.injEq, Prod.mk.injEq] at h
      obtain ⟨rfl, rfl⟩ := h
      simpa using strip?_eq_some_iff.1 hstrip
    next =>
      simp only [Option.map_eq_some_iff, Prod.mk.injEq, Prod.exists] at h
      obtain ⟨front, back, hcut, rfl, rfl⟩ := h
      rw [ih hcut]
      simp

/-- A cut at the last occurrence loses nothing but the separator. -/
theorem eq_of_cutLast? {sep cs before after : List Char}
    (h : cutLast? sep cs = some (before, after)) : cs = before ++ sep ++ after := by
  simp only [cutLast?, Option.map_eq_some_iff, Prod.mk.injEq, Prod.exists] at h
  obtain ⟨back, front, hcut, rfl, rfl⟩ := h
  have hrev := congrArg List.reverse (eq_of_cutFirst? hcut)
  simpa using hrev

end SeedLogic.Text
