import SeedLogic.Proofs.Requirement.Partition

/-!
# Atoms at their places

An atom of a text is found between two parts of the text, and its position is the length of the
first part in bytes. Whatever stands around the atom belongs to tokens of its own: the tokens of the
text are those of the first part, the atom, and those of the second part.

## Main results

* `Token.exists_tokens_of_mem` : the tokens around an atom at a given place.
* `Token.exists_tokens_parentheses` : the tokens around a text in parentheses.
-/

namespace SeedLogic.Token

/-- An atom that stands after some bytes of a text divides the tokens of the text into those of the
two parts around it. -/
theorem exists_tokens_of_mem {before name after : String}
    (h : ⟨.atom name, Text.byteLength before.toList⟩ ∈ tokenize (before ++ name ++ after)) :
    ∃ first last place, tokenize (before ++ name ++ after) = first ++ ⟨.atom name, place⟩ :: last ∧
      first.map PlacedToken.token = (tokenize before).map PlacedToken.token ∧
      last.map PlacedToken.token = (tokenize after).map PlacedToken.token := by
  obtain ⟨first, last, htokens⟩ := List.append_of_mem h
  have hlayout := layout_tokenize (before ++ name ++ after)
  rw [htokens] at hlayout
  obtain ⟨before', after', hsplit, hplace, hfirst, hlast⟩ := hlayout.split
  rw [Nat.zero_add] at hplace
  obtain ⟨rfl, hafter⟩ : before.toList = before' ∧
      name.toList ++ after.toList = name.toList ++ after' :=
    Text.append_inj_of_byteLength (by simpa [String.toList_append, Token.text] using hsplit) hplace
  obtain rfl : after.toList = after' := List.append_cancel_left hafter
  exact ⟨first, last, _, htokens, by rw [hfirst.map_token, map_token_tokenize],
    by rw [hlast.map_token, map_token_tokenize]⟩

/-- The tokens of a text in parentheses stand between those of the parentheses, and these between
those of the text around them. -/
theorem exists_tokens_parentheses (before text after : String) :
    ∃ first inner last start stop, tokenize (before ++ "(" ++ text ++ ")" ++ after) =
        first ++ ((⟨.opening, start⟩ :: inner ++ [⟨.closing, stop⟩]) ++ last) ∧
      first.map PlacedToken.token = (tokenize before).map PlacedToken.token ∧
      inner.map PlacedToken.token = (tokenize text).map PlacedToken.token ∧
      last.map PlacedToken.token = (tokenize after).map PlacedToken.token := by
  have hchars : (before ++ "(" ++ text ++ ")" ++ after).toList =
      before.toList ++ '(' :: (text.toList ++ ')' :: after.toList) := by
    simp [String.toList_append]
  have hlex := map_token_tokenize (before ++ "(" ++ text ++ ")" ++ after)
  rw [hchars, lex_append_structural (rfl : ofStructural? '(' = some .opening),
    lex_append_structural (rfl : ofStructural? ')' = some .closing), ← map_token_tokenize,
    ← map_token_tokenize, ← map_token_tokenize] at hlex
  obtain ⟨first, _, htokens, hfirst, hopened⟩ := List.map_eq_append_iff.1 hlex
  obtain ⟨⟨_, start⟩, _, rfl, rfl, hinside⟩ := List.map_eq_cons_iff.1 hopened
  obtain ⟨inner, _, rfl, hinner, hclosed⟩ := List.map_eq_append_iff.1 hinside
  obtain ⟨⟨_, stop⟩, last, rfl, rfl, hlast⟩ := List.map_eq_cons_iff.1 hclosed
  refine ⟨first, inner, last, start, stop, ?_, hfirst, hinner, hlast⟩
  rw [htokens, List.cons_append, List.cons_append, List.append_assoc, List.singleton_append]

end SeedLogic.Token
