import Mathlib.Data.List.Chain
import SeedLogic.Proofs.Requirement.Tokens
import SeedLogic.Proofs.Text.Cuts

/-!
# The tokens of a text as a partition

The tokens of a text are spans of its bytes that stand one after the other, every token being the
slice of the text at its span. The structural characters are tokens of their own, atoms are words
that have a structural character between them, and only blanks stand outside the spans. No other
list of tokens has these properties.

The proof reads the tokens off from left to right. In a layout of a text, blanks lead to the first
token and the other tokens are a layout of the text behind it. The tokens that are found by scanning
are a layout, every layout is a partition, and every partition is a layout. In a layout the kinds of
the tokens are fixed by the text alone, and then so are their places, since a token does not start
with a blank.

## Main definitions

* `Token.Partitions` : lists of tokens that divide a text.
* `Token.Layout` : tokens that are read off one by one.

## Main results

* `Token.Layout.split` : a token of a layout divides the characters and the other tokens.
* `Token.Layout.unique` : a text has one layout only.
* `Token.layout_tokenize` : the tokens of a text are a layout.
* `Token.partitions_iff_layout` : partitions are layouts.
* `Token.tokenize_eq_iff_partitions` : the tokens of a text are its only partition.
-/

namespace SeedLogic

/-- The byte behind a token. -/
def PlacedToken.stop (t : PlacedToken) : Nat := t.position + t.token.text.utf8ByteSize

/-- A piece of a text starts at a byte of the text. -/
def Text.StandsAt (text piece : String) (position : Nat) : Prop :=
  ∃ before after, text = before ++ piece ++ after ∧ before.utf8ByteSize = position

/-- The pieces of a text stand behind the characters that their position counts. -/
theorem Text.standsAt_iff {text piece : String} {position : Nat} :
    StandsAt text piece position ↔ ∃ before after : List Char,
      text.toList = before ++ piece.toList ++ after ∧ byteLength before = position := by
  constructor
  · rintro ⟨before, after, rfl, rfl⟩
    exact ⟨before.toList, after.toList, by simp [String.toList_append], byteLength_toList before⟩
  · rintro ⟨before, after, hsplit, rfl⟩
    refine ⟨.ofList before, .ofList after, ?_, ?_⟩
    · rw [← String.toList_inj, hsplit]
      simp [String.toList_append]
    · rw [← byteLength_toList, String.toList_ofList]

namespace Token

/-- Whether a token is an atom. -/
def isAtom : Token → Bool
  | .atom _ => true
  | _ => false

/-- The tokens divide the text into their spans and blanks. -/
structure Partitions (text : String) (tokens : List PlacedToken) : Prop where
  /-- The spans are in increasing order and disjoint. -/
  ordered : tokens.Pairwise fun t u => t.stop ≤ u.position
  /-- Each token is the slice of the text at its span. -/
  slice : ∀ t ∈ tokens, Text.StandsAt text t.token.text t.position
  /-- The structural tokens are the occurrences of the structural characters. -/
  structural : ∀ c token position, ofStructural? c = some token →
    (⟨token, position⟩ ∈ tokens ↔ Text.StandsAt text (.singleton c) position)
  /-- Atoms are words. -/
  word : ∀ name position, ⟨.atom name, position⟩ ∈ tokens → IsWord name
  /-- No two atoms are neighbours. -/
  apart : tokens.IsChain fun t u => ¬(t.token.isAtom = true ∧ u.token.isAtom = true)
  /-- Every byte outside the spans belongs to a blank. -/
  blank : ∀ before c after byte, text = before ++ .singleton c ++ after →
    before.utf8ByteSize ≤ byte → byte < before.utf8ByteSize + c.utf8Size →
    (∀ t ∈ tokens, ¬(t.position ≤ byte ∧ byte < t.stop)) → Text.isBlank c = true

/-- The tokens of some characters from byte `start` on, read off one by one: blanks lead to the
first token, and the other tokens are those of the characters behind it. -/
inductive Layout : Nat → List Char → List PlacedToken → Prop
  | blanks (start : Nat) {cs : List Char} (h : ∀ c ∈ cs, Text.isBlank c = true) :
      Layout start cs []
  | token {start : Nat} {gap rest : List Char} {token : Token} {tokens : List PlacedToken}
      (hgap : ∀ c ∈ gap, Text.isBlank c = true)
      (hword : ∀ name, token = .atom name → IsWord name)
      (hnext : ∀ next ∈ tokens.head?, ¬(token.isAtom = true ∧ next.token.isAtom = true))
      (hrest : Layout (start + Text.byteLength gap + Text.byteLength token.text.toList) rest
        tokens) :
      Layout start (gap ++ (token.text.toList ++ rest))
        (⟨token, start + Text.byteLength gap⟩ :: tokens)

/-! ### Single tokens -/

variable {c : Char} {cs rest : List Char} {token : Token}

/-- The text of a structural token is its character. -/
theorem text_of_structural (h : ofStructural? c = some token) : token.text = .singleton c := by
  unfold ofStructural? at h
  split at h
  case h_5 => cases h
  all_goals
    cases h
    rfl

/-- Structural tokens are no atoms. -/
theorem isAtom_of_structural (h : ofStructural? c = some token) : token.isAtom = false := by
  cases token with
  | atom name => exact absurd rfl (ne_atom_of_structural h)
  | _ => rfl

/-- A structural character is no blank. -/
theorem isBlank_of_structural (h : ofStructural? c = some token) : Text.isBlank c = false := by
  by_contra hblank
  rw [ofStructural?_of_isBlank (by simpa using hblank)] at h
  cases h

/-- A token that is no atom is that of a structural character. -/
theorem exists_structural_of_isAtom (h : token.isAtom = false) :
    ∃ c, ofStructural? c = some token := by
  cases token with
  | and => exact ⟨'&', rfl⟩
  | or => exact ⟨'|', rfl⟩
  | opening => exact ⟨'(', rfl⟩
  | closing => exact ⟨')', rfl⟩
  | atom text => cases h

private theorem exists_eq_atom (h : token.isAtom = true) : ∃ name, token = .atom name := by
  cases token with
  | atom name => exact ⟨name, rfl⟩
  | _ => cases h

/-- The text of a token does not start with a blank. -/
private theorem exists_cons_of_word (hword : ∀ name, token = .atom name → IsWord name) :
    ∃ c cs, token.text.toList = c :: cs ∧ Text.isBlank c = false := by
  cases htoken : token.isAtom with
  | true =>
    obtain ⟨name, rfl⟩ := exists_eq_atom htoken
    have h := hword name rfl
    obtain ⟨c, cs, hcs⟩ : ∃ c cs, name.toList = c :: cs :=
      List.exists_cons_of_ne_nil fun hnil => h.ne_empty (String.toList_eq_nil_iff.1 hnil)
    exact ⟨c, cs, hcs, by simpa [hcs] using h.head⟩
  | false =>
    obtain ⟨c, hc⟩ := exists_structural_of_isAtom htoken
    exact ⟨c, [], by rw [text_of_structural hc, String.toList_singleton],
      isBlank_of_structural hc⟩

/-- Blanks in front of what starts otherwise are found in one way only. -/
private theorem gap_inj {gap other as bs : List Char} (hgap : ∀ c ∈ gap, Text.isBlank c = true)
    (hother : ∀ c ∈ other, Text.isBlank c = true) (h : gap ++ as = other ++ bs)
    (has : ∃ c cs, as = c :: cs ∧ Text.isBlank c = false)
    (hbs : ∃ c cs, bs = c :: cs ∧ Text.isBlank c = false) : gap = other ∧ as = bs := by
  obtain ⟨a, as, rfl, ha⟩ := has
  obtain ⟨b, bs, rfl, hb⟩ := hbs
  have htake := congrArg (List.takeWhile Text.isBlank) h
  rw [List.takeWhile_append_of_pos hgap, List.takeWhile_append_of_pos hother,
    List.takeWhile_cons_of_neg (by simp [ha]), List.takeWhile_cons_of_neg (by simp [hb]),
    List.append_nil, List.append_nil] at htake
  subst htake
  exact ⟨rfl, List.append_cancel_left h⟩

/-! ### Layouts are unique -/

section Layout

variable {start : Nat} {tokens : List PlacedToken} {t : PlacedToken}

private theorem delimits_of_blanks {blanks : List Char}
    (h : ∀ c ∈ blanks, Text.isBlank c = true) (hrest : Delimits rest) :
    Delimits (blanks ++ rest) := by
  induction blanks with
  | nil => exact hrest
  | cons c blanks ih =>
    obtain ⟨hc, hblanks⟩ := List.forall_mem_cons.1 h
    exact .blank hc (ih hblanks)

/-- A word ends before characters whose first token is no atom. -/
theorem Layout.delimits (h : Layout start cs tokens)
    (hhead : ∀ next ∈ tokens.head?, next.token.isAtom = false) : Delimits cs := by
  cases h with
  | blanks _ hcs => simpa using delimits_of_blanks hcs .nil
  | @token _ gap rest token tokens hgap =>
    obtain ⟨c, hc⟩ := exists_structural_of_isAtom (hhead _ rfl)
    rw [text_of_structural hc, String.toList_singleton]
    exact delimits_of_blanks hgap (.structural hc rest)

/-- The tokens of a layout, without their places, are those of the characters. -/
theorem Layout.map_token (h : Layout start cs tokens) :
    tokens.map PlacedToken.token = lex [] cs := by
  induction h with
  | blanks _ hcs => exact (lex_of_blanks hcs).symm
  | @token _ gap rest token tokens hgap hword hnext hrest ih =>
    rw [List.map_cons, ih, lex_blanks hgap]
    cases htoken : token.isAtom with
    | true =>
      obtain ⟨name, rfl⟩ := exists_eq_atom htoken
      have hdelimits : Delimits rest :=
        hrest.delimits fun next hmem => by simpa [htoken] using hnext next hmem
      exact ((hword name rfl).lex_append hdelimits).symm
    | false =>
      obtain ⟨c, hc⟩ := exists_structural_of_isAtom htoken
      rw [text_of_structural hc, String.toList_singleton, List.singleton_append,
        lex_structural hc]

/-- The first token of a layout stands behind blanks, and the others are a layout of what stands
behind it. -/
private theorem Layout.exists_of_cons (h : Layout start cs (t :: tokens)) :
    ∃ gap rest, cs = gap ++ (t.token.text.toList ++ rest) ∧
      (∀ c ∈ gap, Text.isBlank c = true) ∧ (∀ name, t.token = .atom name → IsWord name) ∧
      t.position = start + Text.byteLength gap ∧
      Layout (start + Text.byteLength gap + Text.byteLength t.token.text.toList) rest tokens := by
  cases h with
  | token hgap hword _ hrest => exact ⟨_, _, rfl, hgap, hword, rfl, hrest⟩

/-- Layouts with the same tokens have them at the same places. -/
private theorem Layout.eq_of_map_token {others : List PlacedToken} (h : Layout start cs tokens)
    (h' : Layout start cs others)
    (hmap : tokens.map PlacedToken.token = others.map PlacedToken.token) : tokens = others := by
  induction h generalizing others with
  | blanks => exact (List.map_eq_nil_iff.1 hmap.symm).symm
  | @token start gap rest token tokens hgap hword _ _ ih =>
    obtain ⟨⟨token', position⟩, others, rfl, rfl, hothers⟩ := List.map_eq_cons_iff.1 hmap.symm
    obtain ⟨gap', rest', hcs, hgap', -, hposition, hrest'⟩ := h'.exists_of_cons
    obtain ⟨c, text, htext, hc⟩ := exists_cons_of_word hword
    obtain ⟨rfl, hrest⟩ := gap_inj hgap hgap' hcs
      ⟨c, text ++ rest, by rw [htext, List.cons_append], hc⟩
      ⟨c, text ++ rest', by rw [htext, List.cons_append], hc⟩
    obtain rfl := List.append_cancel_left hrest
    obtain rfl : position = start + Text.byteLength gap := hposition
    rw [ih hrest' hothers.symm]

/-- Some characters have one layout only. -/
theorem Layout.unique {others : List PlacedToken} (h : Layout start cs tokens)
    (h' : Layout start cs others) : tokens = others :=
  h.eq_of_map_token h' (h.map_token.trans h'.map_token.symm)

/-! ### A token divides a layout -/

/-- A token of a layout divides the characters: the tokens before it are a layout of what stands
before it, and those behind it are a layout of what stands behind it. -/
theorem Layout.split {first last : List PlacedToken} (h : Layout start cs (first ++ t :: last)) :
    ∃ before after, cs = before ++ t.token.text.toList ++ after ∧
      t.position = start + Text.byteLength before ∧ Layout start before first ∧
      Layout (t.position + Text.byteLength t.token.text.toList) after last := by
  induction first generalizing start cs with
  | nil =>
    obtain ⟨gap, rest, rfl, hgap, -, hposition, hrest⟩ := h.exists_of_cons
    exact ⟨gap, rest, by simp, hposition, .blanks start hgap, hposition ▸ hrest⟩
  | cons u first ih =>
    cases h with
    | @token _ gap rest token _ hgap hword hnext hrest =>
      obtain ⟨before, after, rfl, hposition, hfirst, hlast⟩ := ih hrest
      have hnext' : ∀ next ∈ first.head?, ¬(token.isAtom = true ∧ next.token.isAtom = true) :=
        fun next hmem => hnext next (List.mem_head?_append_of_mem_head? hmem)
      refine ⟨gap ++ (token.text.toList ++ before), after, by simp, ?_,
        .token hgap hword hnext' hfirst, hlast⟩
      simp [hposition, Nat.add_assoc]

/-! ### Scanning gives a layout -/

/-- Blanks in front belong to the gap before the first token. -/
private theorem Layout.prepend {blanks : List Char} (hblanks : ∀ c ∈ blanks, Text.isBlank c = true)
    (h : Layout (start + Text.byteLength blanks) cs tokens) :
    Layout start (blanks ++ cs) tokens := by
  cases h with
  | blanks _ hcs => exact .blanks _ (List.forall_mem_append.2 ⟨hblanks, hcs⟩)
  | @token _ gap rest token tokens hgap hword hnext hrest =>
    have hmore := Layout.token (List.forall_mem_append.2 ⟨hblanks, hgap⟩) hword hnext
      (by simpa [Nat.add_assoc] using hrest)
    simpa [Nat.add_assoc] using hmore

/-- The atom in a run comes first, provided that no atom follows the run. -/
private theorem Layout.atomIn {run : List Char} (hrun : ∀ c ∈ run, ofStructural? c = none)
    (hnext : ∀ next ∈ tokens.head?, next.token.isAtom = false)
    (h : Layout (start + Text.byteLength run) rest tokens) :
    Layout start (run ++ rest) (Token.atomIn start run ++ tokens) := by
  obtain ⟨after, hafter, hsplit⟩ := Text.exists_blanks_of_trim run
  have hlead : ∀ c ∈ run.takeWhile Text.isBlank, Text.isBlank c = true := fun c hc =>
    List.mem_takeWhile_imp hc
  generalize hgap : run.takeWhile Text.isBlank = gap at hsplit hlead
  rw [Token.atomIn, hgap]
  cases htrim : Text.trim run with
  | nil =>
    refine h.prepend fun c hc => ?_
    rw [hsplit, htrim, List.append_nil] at hc
    rcases List.mem_append.1 hc with hc | hc
    · exact hlead c hc
    · exact hafter c hc
  | cons c cs =>
    rw [htrim] at hsplit
    have hword : IsWord (.ofList (c :: cs)) := isWord_of_trim hrun htrim
    have hbehind : Layout (start + Text.byteLength gap + Text.byteLength (c :: cs))
        (after ++ rest) tokens := by
      refine Layout.prepend hafter ?_
      rw [hsplit] at h
      simpa [Nat.add_assoc] using h
    have hlayout := Layout.token hlead (fun name hname => by cases hname; exact hword)
      (fun next hmem hboth => by simp [hnext next hmem] at hboth)
      (show Layout (start + Text.byteLength gap +
        Text.byteLength (Token.atom (.ofList (c :: cs))).text.toList) (after ++ rest) tokens by
          rwa [Token.text, String.toList_ofList])
    rw [hsplit]
    simpa [Token.text] using hlayout

/-- Scanning lays the tokens out. -/
private theorem layout_scan (run : List Char) {start position : Nat} {cs : List Char}
    (hposition : position = start + Text.byteLength run.reverse)
    (hrun : ∀ c ∈ run.reverse, ofStructural? c = none) :
    Layout start (run.reverse ++ cs) (scan start position run cs) := by
  induction cs generalizing start position run with
  | nil =>
    rw [scan, ← List.append_nil (Token.atomIn start run.reverse)]
    exact .atomIn hrun (by simp) (.blanks _ (by simp))
  | cons c cs ih =>
    rw [scan]
    cases hc : ofStructural? c with
    | none =>
      have hposition' : position + c.utf8Size = start + Text.byteLength (c :: run).reverse := by
        simp [hposition, Nat.add_assoc]
      have hrun' : ∀ d ∈ (c :: run).reverse, ofStructural? d = none := by
        simpa [or_imp, forall_and, hc] using hrun
      simpa using ih (c :: run) hposition' hrun'
    | some token =>
      have htext : token.text.toList = [c] := by
        rw [text_of_structural hc, String.toList_singleton]
      have hatom := isAtom_of_structural hc
      have hbehind : Layout (position + c.utf8Size) cs
          (scan (position + c.utf8Size) (position + c.utf8Size) [] cs) :=
        ih [] (by simp) (by simp)
      have hcs : Layout position (c :: cs) (⟨token, position⟩ ::
          scan (position + c.utf8Size) (position + c.utf8Size) [] cs) := by
        have hlayout := Layout.token (List.forall_mem_nil fun c => Text.isBlank c = true)
          (fun name hname => by simp [hname, isAtom] at hatom)
          (fun next _ hboth => by simp [hatom] at hboth)
          (show Layout (position + Text.byteLength [] + Text.byteLength token.text.toList) cs _ by
            simpa [htext] using hbehind)
        simpa [htext] using hlayout
      exact .atomIn hrun (by simpa using hatom) (hposition ▸ hcs)

/-- The tokens of a text are a layout of its characters. -/
theorem layout_tokenize (text : String) : Layout 0 text.toList (tokenize text) :=
  layout_scan [] (by simp) (by simp)

/-! ### Layouts are partitions -/

/-- No token stands before the first byte. -/
private theorem Layout.le_position (h : Layout start cs tokens) :
    ∀ t ∈ tokens, start ≤ t.position := by
  induction h with
  | blanks => simp
  | token _ _ _ _ ih =>
    refine List.forall_mem_cons.2 ⟨Nat.le_add_right _ _, fun t ht => ?_⟩
    have hle := ih t ht
    omega

/-- The spans of the tokens stand one after the other. -/
private theorem Layout.ordered (h : Layout start cs tokens) :
    tokens.Pairwise fun t u => t.stop ≤ u.position := by
  induction h with
  | blanks => exact .nil
  | token _ _ _ hrest ih =>
    refine List.pairwise_cons.2 ⟨fun u hu => ?_, ih⟩
    rw [PlacedToken.stop, ← Text.byteLength_toList]
    exact hrest.le_position u hu

/-- Each token stands behind the bytes that its position counts. -/
private theorem Layout.slice (h : Layout start cs tokens) :
    ∀ t ∈ tokens, ∃ before after, cs = before ++ t.token.text.toList ++ after ∧
      t.position = start + Text.byteLength before := by
  intro t ht
  obtain ⟨first, last, rfl⟩ := List.append_of_mem ht
  obtain ⟨before, after, rfl, hposition, -, -⟩ := h.split
  exact ⟨before, after, rfl, hposition⟩

private theorem Layout.word (h : Layout start cs tokens) :
    ∀ t ∈ tokens, ∀ name, t.token = .atom name → IsWord name := by
  induction h with
  | blanks => simp
  | token _ hword _ _ ih => exact List.forall_mem_cons.2 ⟨hword, ih⟩

private theorem Layout.apart (h : Layout start cs tokens) :
    tokens.IsChain fun t u => ¬(t.token.isAtom = true ∧ u.token.isAtom = true) := by
  induction h with
  | blanks => exact .nil
  | token _ _ hnext _ ih => exact List.isChain_cons.2 ⟨hnext, ih⟩

/-- A character that is no blank stands within a token. -/
private theorem Layout.exists_token (h : Layout start cs tokens) {before after : List Char}
    (hcs : cs = before ++ c :: after) (hc : Text.isBlank c = false) :
    ∃ t ∈ tokens, ∃ left right, t.token.text.toList = left ++ c :: right ∧
      t.position + Text.byteLength left = start + Text.byteLength before := by
  induction h generalizing before with
  | blanks _ hblanks =>
    have hblank := hblanks c (by simp [hcs])
    rw [hc] at hblank
    cases hblank
  | @token start gap rest token tokens hgap _ _ _ ih =>
    rcases Text.split_at_char hcs with ⟨more, rfl⟩ | ⟨inside, rfl, htoken⟩
    · have hblank := hgap c (by simp)
      rw [hc] at hblank
      cases hblank
    · rcases Text.split_at_char htoken with ⟨right, htext⟩ | ⟨behind, rfl, hrest⟩
      · exact ⟨_, List.mem_cons_self, inside, right, htext, by simp [Nat.add_assoc]⟩
      · obtain ⟨t, ht, left, right, htext, hposition⟩ := ih hrest
        refine ⟨t, List.mem_cons_of_mem _ ht, left, right, htext, ?_⟩
        simp [hposition, Nat.add_assoc]

/-- A structural character is a token of its own. -/
private theorem Layout.mem_of_structural (h : Layout start cs tokens) {before after : List Char}
    (hcs : cs = before ++ c :: after) (hc : ofStructural? c = some token) :
    ⟨token, start + Text.byteLength before⟩ ∈ tokens := by
  obtain ⟨⟨found, place⟩, hmem, left, right, htext, hposition⟩ :=
    h.exists_token hcs (isBlank_of_structural hc)
  cases hfound : found.isAtom with
  | true =>
    obtain ⟨name, rfl⟩ := exists_eq_atom hfound
    have hname : name.toList = left ++ c :: right := htext
    have hplain := (h.word _ hmem name rfl).plain c (by simp [hname])
    rw [hc] at hplain
    cases hplain
  | false =>
    obtain ⟨d, hd⟩ := exists_structural_of_isAtom hfound
    rw [text_of_structural hd, String.toList_singleton] at htext
    obtain ⟨rfl, rfl⟩ : left = [] ∧ d = c := by
      cases left with
      | nil => exact ⟨rfl, (List.cons.inj htext).1⟩
      | cons e left => simp at htext
    obtain rfl : found = token := Option.some.inj (hd.symm.trans hc)
    exact hposition ▸ hmem

private theorem Layout.standsAt {text : String} (h : Layout 0 text.toList tokens) :
    ∀ t ∈ tokens, Text.StandsAt text t.token.text t.position := by
  intro t ht
  obtain ⟨before, after, hsplit, hposition⟩ := h.slice t ht
  rw [Nat.zero_add] at hposition
  exact Text.standsAt_iff.2 ⟨before, after, hsplit, hposition.symm⟩

/-- A layout of the characters of a text divides the text. -/
private theorem Layout.partitions {text : String} (h : Layout 0 text.toList tokens) :
    Partitions text tokens where
  ordered := h.ordered
  slice := h.standsAt
  structural c token position hc := by
    constructor
    · intro hmem
      exact text_of_structural hc ▸ h.standsAt _ hmem
    · intro hstands
      obtain ⟨before, after, hchars, rfl⟩ := Text.standsAt_iff.1 hstands
      rw [String.toList_singleton, List.append_assoc, List.singleton_append] at hchars
      have hmem := h.mem_of_structural hchars hc
      rwa [Nat.zero_add] at hmem
  word name position hmem := h.word _ hmem name rfl
  apart := h.apart
  blank before c after byte hsplit hle hlt houtside := by
    by_contra hblank
    have hchars : text.toList = before.toList ++ c :: after.toList := by
      rw [hsplit]
      simp [String.toList_append]
    obtain ⟨t, ht, left, right, htext, hposition⟩ :=
      h.exists_token hchars (by simpa using hblank)
    refine houtside t ht ?_
    rw [PlacedToken.stop, ← Text.byteLength_toList t.token.text, htext]
    rw [Nat.zero_add, Text.byteLength_toList] at hposition
    simp only [Text.byteLength_append, Text.byteLength_cons]
    omega

/-! ### Partitions are layouts -/

/-- A character that meets no span with its first byte is a blank. -/
private theorem Partitions.blank_of_uncovered {text : String} (h : Partitions text tokens)
    {before after : List Char} (hsplit : text.toList = before ++ c :: after)
    (houtside : ∀ t ∈ tokens, t.stop ≤ Text.byteLength before ∨
      Text.byteLength before < t.position) : Text.isBlank c = true := by
  have hsize : (String.ofList before).utf8ByteSize = Text.byteLength before := by
    rw [← Text.byteLength_toList, String.toList_ofList]
  refine h.blank (.ofList before) c (.ofList after) (Text.byteLength before) ?_ hsize.le ?_ ?_
  · rw [← String.toList_inj, hsplit]
    simp [String.toList_append]
  · rw [hsize]
    exact Nat.lt_add_of_pos_right c.utf8Size_pos
  · intro t ht hinside
    rcases houtside t ht with hbefore | hbehind
    · omega
    · omega

/-- The tokens of a partition that remain behind some of its tokens are a layout of the characters
that remain. -/
private theorem Partitions.layout_rest {text : String} (h : Partitions text tokens)
    {done remaining : List PlacedToken} {before cs : List Char}
    (htokens : tokens = done ++ remaining) (htext : text.toList = before ++ cs)
    (hdone : ∀ t ∈ done, t.stop ≤ Text.byteLength before)
    (hremaining : ∀ t ∈ remaining, Text.byteLength before ≤ t.position) :
    Layout (Text.byteLength before) cs remaining := by
  induction remaining generalizing done before cs with
  | nil =>
    refine .blanks _ fun c hc => ?_
    obtain ⟨front, back, rfl⟩ := List.append_of_mem hc
    refine h.blank_of_uncovered (htext.trans (List.append_assoc _ _ _).symm) fun t ht => .inl ?_
    rw [Text.byteLength_append]
    rw [htokens, List.append_nil] at ht
    exact Nat.le_trans (hdone t ht) (Nat.le_add_right _ _)
  | cons t remaining ih =>
    have hmem : t ∈ tokens := htokens ▸ List.mem_append_right done List.mem_cons_self
    obtain ⟨front, back, hslice, hposition⟩ := Text.standsAt_iff.1 (h.slice t hmem)
    have hstop : t.stop = t.position + Text.byteLength t.token.text.toList := by
      rw [PlacedToken.stop, Text.byteLength_toList]
    have hbehind : ∀ u ∈ remaining, t.stop ≤ u.position :=
      (List.pairwise_cons.1 (List.pairwise_append.1 (htokens ▸ h.ordered)).2.1).1
    -- The token stands behind a gap, in which there is no other token.
    have hfront := htext.symm.trans hslice
    rw [List.append_assoc] at hfront
    obtain ⟨gap, rfl, rfl⟩ := Text.exists_append_of_byteLength_le hfront
      (hposition ▸ hremaining t List.mem_cons_self)
    rw [Text.byteLength_append] at hposition
    have hgap : ∀ c ∈ gap, Text.isBlank c = true := by
      intro c hc
      obtain ⟨left, right, rfl⟩ := List.append_of_mem hc
      have hc : text.toList = (before ++ left) ++ c ::
          (right ++ (t.token.text.toList ++ back)) := by simpa using hslice
      refine h.blank_of_uncovered hc fun u hu => ?_
      have hpositive := c.utf8Size_pos
      simp only [Text.byteLength_append, Text.byteLength_cons] at hposition ⊢
      rcases List.mem_append.1 (htokens ▸ hu) with hu | hu
      · exact .inl (Nat.le_trans (hdone u hu) (Nat.le_add_right _ _))
      · rcases List.mem_cons.1 hu with rfl | hu
        · exact .inr (by omega)
        · have hle := hbehind u hu
          exact .inr (by omega)
    have htokens' : tokens = done ++ [t] ++ remaining := by simpa using htokens
    have htext' : text.toList = before ++ gap ++ t.token.text.toList ++ back := by
      simpa using hslice
    have hdone' : ∀ u ∈ done ++ [t],
        u.stop ≤ Text.byteLength (before ++ gap ++ t.token.text.toList) := by
      simp only [List.forall_mem_append, List.forall_mem_singleton, Text.byteLength_append]
      refine ⟨fun u hu => ?_, by omega⟩
      have hle := hdone u hu
      omega
    have hbehind' : ∀ u ∈ remaining,
        Text.byteLength (before ++ gap ++ t.token.text.toList) ≤ u.position := by
      simp only [Text.byteLength_append]
      intro u hu
      have hle := hbehind u hu
      omega
    have hrest := ih htokens' htext' hdone' hbehind'
    rw [Text.byteLength_append, Text.byteLength_append] at hrest
    have hlayout := Layout.token hgap (fun name hname => h.word name t.position (hname ▸ hmem))
      (List.isChain_cons.1 (List.isChain_append.1 (htokens ▸ h.apart)).2.1).1 hrest
    rwa [hposition] at hlayout

/-- The partitions of a text are the layouts of its characters. -/
theorem partitions_iff_layout {text : String} :
    Partitions text tokens ↔ Layout 0 text.toList tokens :=
  ⟨fun h => h.layout_rest (List.nil_append tokens).symm (List.nil_append _).symm (by simp)
    (by simp), Layout.partitions⟩

/-- The tokens of a text are the only list of tokens that divides it: spans of bytes in increasing
order, each with the slice of the text as its text; one structural token for each structural
character; atoms that are not empty, hold no structural character, neither start nor end with a
blank and are no neighbours; and nothing but blanks outside the spans. -/
theorem tokenize_eq_iff_partitions {text : String} :
    tokenize text = tokens ↔ Partitions text tokens := by
  rw [partitions_iff_layout]
  constructor
  · rintro rfl
    exact layout_tokenize text
  · exact (layout_tokenize text).unique

example : tokenize " Ébène |\u00a0(Leaf)" = [⟨.atom "Ébène", 1⟩, ⟨.or, 9⟩, ⟨.opening, 12⟩,
    ⟨.atom "Leaf", 13⟩, ⟨.closing, 17⟩] := by
  decide +kernel

end Layout

end Token

end SeedLogic
