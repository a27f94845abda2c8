import SeedLogic.Proofs.Text.Trimming
import SeedLogic.Requirement.Token

/-!
# Tokens without their places

The kinds of the tokens of a text do not depend on the place where the text begins. They are read
off one by one: a blank at the start of a text is skipped, a structural character is a token of its
own, and a word is an atom provided that a structural character follows it, after blanks if any, or
that the text ends.

## Main definitions

* `Token.lex` : the tokens of a text without their places.
* `Token.IsWord` : texts that are read as one atom.
* `Token.Delimits` : texts before which a word ends.

## Main results

* `Token.map_token_tokenize` : tokens without their places.
* `Token.lex_append_structural` : a structural character divides a text.
* `Token.IsWord.lex_append` : a word is read as one atom.
* `Token.map_token_tokenize_eq_atom_iff` : only words are read as themselves.
-/

namespace SeedLogic.Token

/-! ### Tokens of a text -/

/-- The atom in a run of other characters, unless the run is blank. -/
def atomOf (run : List Char) : List Token :=
  match Text.trim run with
  | [] => []
  | c :: cs => [.atom (.ofList (c :: cs))]

/-- The tokens of some characters. The characters since the last structural one stand in `run`,
latest first. -/
def lex (run : List Char) : List Char → List Token
  | [] => atomOf run.reverse
  | c :: cs =>
    match ofStructural? c with
    | some token => atomOf run.reverse ++ token :: lex [] cs
    | none => lex (c :: run) cs

private theorem map_token_atomIn (start : Nat) (run : List Char) :
    (atomIn start run).map PlacedToken.token = atomOf run := by
  rw [atomIn, atomOf]
  cases Text.trim run <;> rfl

private theorem map_token_scan (cs : List Char) (start position : Nat) (run : List Char) :
    (scan start position run cs).map PlacedToken.token = lex run cs := by
  induction cs generalizing start position run with
  | nil => rw [scan, lex, map_token_atomIn]
  | cons c cs ih =>
    rw [scan, lex]
    cases ofStructural? c with
    | none => exact ih start (position + c.utf8Size) (c :: run)
    | some token =>
      simp only [List.map_append, List.map_cons, map_token_atomIn]
      rw [ih]

/-- The tokens of a text are found at their places. -/
theorem map_token_tokenize (requirement : String) :
    (tokenize requirement).map PlacedToken.token = lex [] requirement.toList :=
  map_token_scan requirement.toList 0 0 []

/-! ### Single characters -/

variable {c : Char} {cs : List Char} {token : Token}

/-- A structural character is a token of its own. -/
theorem lex_structural (h : ofStructural? c = some token) :
    lex [] (c :: cs) = token :: lex [] cs := by
  rw [lex, h]
  rfl

/-- A structural character divides a text into texts with tokens of their own. -/
theorem lex_append_structural (h : ofStructural? c = some token) (run before after : List Char) :
    lex run (before ++ c :: after) = lex run before ++ token :: lex [] after := by
  induction before generalizing run with
  | nil => simp only [List.nil_append, lex, h]
  | cons d before ih =>
    simp only [List.cons_append, lex]
    cases ofStructural? d with
    | none => exact ih (d :: run)
    | some other => simp only [ih, List.append_assoc, List.cons_append]

/-- A blank is not structural. -/
theorem ofStructural?_of_isBlank (h : Text.isBlank c = true) : ofStructural? c = none := by
  unfold ofStructural?
  split
  case h_5 => rfl
  all_goals exact absurd h (by decide)

/-- A blank before a run changes nothing. -/
private theorem lex_append_blank (h : Text.isBlank c = true) (run : List Char) :
    lex (run ++ [c]) cs = lex run cs := by
  have hatom (run : List Char) : atomOf (run ++ [c]).reverse = atomOf run.reverse := by
    have htrim : Text.trim (c :: run.reverse) = Text.trim run.reverse := by
      rw [Text.trim, Text.trimStart, List.dropWhile_cons_of_pos h]
      rfl
    rw [List.reverse_append, List.reverse_singleton, List.singleton_append, atomOf, htrim]
    rfl
  induction cs generalizing run with
  | nil => rw [lex, lex, hatom]
  | cons d cs ih =>
    rw [lex, lex]
    cases ofStructural? d with
    | none => exact ih (d :: run)
    | some token => simp only [hatom]

/-- A blank at the start of a text is skipped. -/
theorem lex_blank (h : Text.isBlank c = true) : lex [] (c :: cs) = lex [] cs := by
  rw [lex, ofStructural?_of_isBlank h]
  exact lex_append_blank h []

/-- Blanks at the start of a text are skipped. -/
theorem lex_blanks {blanks : List Char} (h : ∀ c ∈ blanks, Text.isBlank c = true) :
    lex [] (blanks ++ cs) = lex [] cs := by
  induction blanks with
  | nil => rfl
  | cons c blanks ih =>
    obtain ⟨hc, hblanks⟩ := List.forall_mem_cons.1 h
    rw [List.cons_append, lex_blank hc, ih hblanks]

/-- Blanks have no tokens. -/
theorem lex_of_blanks {blanks : List Char} (h : ∀ c ∈ blanks, Text.isBlank c = true) :
    lex [] blanks = [] := by
  have hlex : lex [] (blanks ++ []) = lex [] [] := lex_blanks h
  rwa [List.append_nil] at hlex

/-! ### Words -/

/-- A text that is read as one atom: it is not empty, it neither starts nor ends with a blank, and
none of its characters is structural. -/
structure IsWord (text : String) : Prop where
  ne_empty : text ≠ ""
  head : text.toList.head?.any Text.isBlank = false
  last : text.toList.getLast?.any Text.isBlank = false
  plain : ∀ c ∈ text.toList, ofStructural? c = none

instance (text : String) : Decidable (IsWord text) :=
  decidable_of_iff (text ≠ "" ∧ text.toList.head?.any Text.isBlank = false ∧
      text.toList.getLast?.any Text.isBlank = false ∧
      (text.toList.all fun c => (ofStructural? c).isNone) = true)
    ⟨fun ⟨hempty, hhead, hlast, hall⟩ =>
        ⟨hempty, hhead, hlast, fun c hc =>
          Option.isNone_iff_eq_none.1 (List.all_eq_true.1 hall c hc)⟩,
      fun h => ⟨h.ne_empty, h.head, h.last,
        List.all_eq_true.2 fun c hc => Option.isNone_iff_eq_none.2 (h.plain c hc)⟩⟩

/-- A text before which a word ends: after blanks, if any, it continues with a structural character
or ends itself. -/
inductive Delimits : List Char → Prop
  | nil : Delimits []
  | structural {c : Char} {token : Token} (h : ofStructural? c = some token) (cs : List Char) :
      Delimits (c :: cs)
  | blank {c : Char} {cs : List Char} (h : Text.isBlank c = true) (hcs : Delimits cs) :
      Delimits (c :: cs)

/-- Characters that are not structural add to the run. -/
theorem lex_append_of_plain {body : List Char} (h : ∀ c ∈ body, ofStructural? c = none)
    (run rest : List Char) : lex run (body ++ rest) = lex (body.reverse ++ run) rest := by
  induction body generalizing run with
  | nil => rfl
  | cons c body ih =>
    obtain ⟨hc, hbody⟩ := List.forall_mem_cons.1 h
    rw [List.cons_append, lex, hc, List.reverse_cons, List.append_assoc]
    exact ih hbody (c :: run)

/-- The only token of characters that are not structural is the atom in them. -/
theorem lex_of_plain {run : List Char} (h : ∀ c ∈ run, ofStructural? c = none) :
    lex [] run = atomOf run := by
  have hlex := lex_append_of_plain h [] []
  rwa [List.append_nil, List.append_nil, lex, List.reverse_reverse] at hlex

variable {text : String}

/-- The atom in a word that blanks follow is the word. -/
private theorem IsWord.atomOf_append (h : IsWord text) {blanks : List Char}
    (hblanks : ∀ c ∈ blanks, Text.isBlank c = true) :
    atomOf (text.toList ++ blanks) = [.atom text] := by
  obtain ⟨c, cs, hcs⟩ : ∃ c cs, text.toList = c :: cs :=
    List.exists_cons_of_ne_nil fun hnil => h.ne_empty (String.toList_eq_nil_iff.1 hnil)
  obtain ⟨body, last, hlast⟩ : ∃ body last, text.toList = body ++ [last] :=
    ⟨_, _, (List.dropLast_concat_getLast (by simp [hcs])).symm⟩
  have hhead : Text.isBlank c = false := by simpa [hcs] using h.head
  have hend : Text.isBlank last = false := by simpa [hlast] using h.last
  have hstart : Text.trimStart (text.toList ++ blanks) = text.toList ++ blanks := by
    rw [hcs, Text.trimStart, List.cons_append, List.dropWhile_cons_of_neg (by simp [hhead])]
  have htrim : Text.trim (text.toList ++ blanks) = text.toList := by
    have hblanks' : ∀ c ∈ blanks.reverse, Text.isBlank c = true := fun c hc =>
      hblanks c (List.mem_reverse.1 hc)
    rw [Text.trim, hstart, Text.trimEnd, List.reverse_append,
      List.dropWhile_append_of_pos hblanks', hlast]
    simp [hend]
  rw [atomOf, htrim, hcs]
  simp only [← hcs, String.ofList_toList]

/-- A word is read as one atom, along with the blanks after it, up to the next structural
character. -/
private theorem IsWord.lex_reverse (h : IsWord text) {rest : List Char} (hrest : Delimits rest)
    {blanks : List Char} (hblanks : ∀ c ∈ blanks, Text.isBlank c = true) :
    lex (blanks ++ text.toList.reverse) rest = .atom text :: lex [] rest := by
  have hatom {blanks : List Char} (hblanks : ∀ c ∈ blanks, Text.isBlank c = true) :
      atomOf (blanks ++ text.toList.reverse).reverse = [.atom text] := by
    rw [List.reverse_append, List.reverse_reverse]
    exact h.atomOf_append fun c hc => hblanks c (List.mem_reverse.1 hc)
  -- The induction collects the blanks after the word in front of the run.
  induction hrest generalizing blanks with
  | nil =>
    rw [lex, hatom hblanks]
    rfl
  | structural hstructural cs =>
    rw [lex_structural hstructural, lex, hstructural]
    simp only [hatom hblanks, List.singleton_append]
  | @blank c cs hblank hcs ih =>
    rw [lex_blank hblank, lex, ofStructural?_of_isBlank hblank]
    have hmore : ∀ d ∈ c :: blanks, Text.isBlank d = true :=
      List.forall_mem_cons.2 ⟨hblank, hblanks⟩
    exact ih hmore

/-- A word is read as one atom when a text follows before which a word ends. -/
theorem IsWord.lex_append (h : IsWord text) {rest : List Char} (hrest : Delimits rest) :
    lex [] (text.toList ++ rest) = .atom text :: lex [] rest := by
  have hnone : ∀ c ∈ ([] : List Char), Text.isBlank c = true := by simp
  rw [lex_append_of_plain h.plain, List.append_nil]
  exact h.lex_reverse hrest hnone

/-! ### Texts that are read as themselves -/

/-- What trimming leaves of characters that are not structural is a word. -/
theorem isWord_of_trim {run : List Char} (hplain : ∀ c ∈ run, ofStructural? c = none)
    (htrim : Text.trim run = c :: cs) : IsWord (.ofList (c :: cs)) := by
  obtain ⟨hhead, hlast⟩ := Text.not_blank_of_trim run
  have hchars : ∀ d ∈ c :: cs, ofStructural? d = none := fun d hd =>
    hplain d ((Text.trim_sublist run).subset (htrim ▸ hd))
  rw [htrim] at hhead hlast
  refine ⟨fun hempty => ?_, ?_, ?_, ?_⟩
  · exact List.cons_ne_nil c cs (by simpa using congrArg String.toList hempty)
  all_goals rwa [String.toList_ofList]

/-- A structural character is not read as an atom. -/
theorem ne_atom_of_structural (h : ofStructural? c = some token) : token ≠ .atom text := by
  unfold ofStructural? at h
  split at h
  case h_5 => cases h
  all_goals
    cases h
    simp

/-- No character of a text that is read as one atom is structural. -/
private theorem plain_of_lex_eq_atom {run : List Char} (h : lex run cs = [.atom text]) :
    ∀ c ∈ cs, ofStructural? c = none := by
  induction cs generalizing run with
  | nil => exact nofun
  | cons c cs ih =>
    rw [lex] at h
    cases hc : ofStructural? c with
    | none =>
      simp only [hc] at h
      exact List.forall_mem_cons.2 ⟨hc, ih h⟩
    | some token =>
      simp only [hc] at h
      have hmem : token ∈ [Token.atom text] := h ▸ List.mem_append_right _ List.mem_cons_self
      exact absurd (List.mem_singleton.1 hmem) (ne_atom_of_structural hc)

/-- A text is read as itself exactly if it is a word. -/
theorem map_token_tokenize_eq_atom_iff :
    (tokenize text).map PlacedToken.token = [.atom text] ↔ IsWord text := by
  rw [map_token_tokenize]
  constructor
  · intro h
    have hplain := plain_of_lex_eq_atom h
    have hlex := lex_of_plain hplain
    rw [h, atomOf] at hlex
    cases htrim : Text.trim text.toList with
    | nil =>
      rw [htrim] at hlex
      cases hlex
    | cons c cs =>
      simp only [htrim, List.cons.injEq, atom.injEq, and_true] at hlex
      exact hlex ▸ isWord_of_trim hplain htrim
  · intro h
    have hlex := h.lex_append .nil
    rwa [List.append_nil] at hlex

end SeedLogic.Token
