import SeedLogic.Proofs.Requirement.NormalForm
import SeedLogic.Proofs.Requirement.Reading
import SeedLogic.Proofs.Requirement.Tokens

/-!
# Building a tree from its text

A tree is written with its nodes in parentheses, except for the root, and with the connective of a
node between each two of its operands. When its leaves are words, the tokens of this text are those
of the parts of the tree. So the text can be built unless more than 32 nodes stand on top of each
other below the root, and the tree that is built has lost at most the connectives that the text does
not show: those of nodes with fewer than two operands. Simplification removes all such nodes.

## Main definitions

* `Requirement.Branching` : trees whose nodes have two operands at least.

## Main results

* `Requirement.lex_render` : the tokens of the text of a tree.
* `Requirement.simplify_reread` : what the text does not show does not outlast simplification.
* `build_render` : building the text of a tree.
-/

namespace SeedLogic

/-- What is written between the operands of a node. -/
def Connective.separator : Connective → String
  | .and => " & "
  | .or => " | "

namespace Requirement

open Token

variable {connective : Connective} {r : Requirement} {rs : List Requirement} {rest : List Char}

/-! ### The tokens of the text -/

/-- A tree as it is written among the operands of a node. -/
private def written (r : Requirement) : List Char :=
  (enclose r r.render).toList

private theorem written_leaf (text : String) : (leaf text).written = text.toList := by
  rw [written, enclose, render]

private theorem written_join (operands : List Requirement) :
    (join connective operands).written =
      '(' :: ((join connective operands).render.toList ++ [')']) := by
  cases connective <;> simp [written, join, enclose]

private theorem render_join_nil : (join connective []).render = connective.identityText := by
  cases connective <;> rfl

/-- The operands of a node are written one after the other, with what is written between them. -/
private theorem toList_render_join_cons :
    (join connective (r :: rs)).render.toList =
      r.written ++ rs.flatMap fun r => connective.separator.toList ++ r.written := by
  have hoperands (rs : List Requirement) :
      (renderOperands rs).map String.toList = rs.map written := by
    induction rs with
    | nil => rfl
    | cons r rs ih => rw [renderOperands, List.map_cons, List.map_cons, ih, written]
  have hintercalate : connective.separator.toList.intercalate ((r :: rs).map written) =
      r.written ++ rs.flatMap fun r => connective.separator.toList ++ r.written := by
    induction rs generalizing r with
    | nil => simp
    | cons t ts ih =>
      rw [List.map_cons, List.map_cons, List.intercalate_cons_cons, ← List.map_cons, ih]
      simp
  have hrender : (join connective (r :: rs)).render =
      connective.separator.intercalate (renderOperands (r :: rs)) := by
    cases connective <;> rw [join, render, Connective.separator]
  rw [hrender, String.toList_intercalate, hoperands, hintercalate]

/-- What is written between operands is read as their connective. -/
private theorem lex_separator (rest : List Char) :
    lex [] (connective.separator.toList ++ rest) = connective.token :: lex [] rest := by
  have hblank : Text.isBlank ' ' = true := by decide
  cases connective with
  | and =>
    have hstructural : ofStructural? '&' = some .and := rfl
    change lex [] (' ' :: '&' :: ' ' :: rest) = _
    rw [lex_blank hblank, lex_structural hstructural, lex_blank hblank]
    rfl
  | or =>
    have hstructural : ofStructural? '|' = some .or := rfl
    change lex [] (' ' :: '|' :: ' ' :: rest) = _
    rw [lex_blank hblank, lex_structural hstructural, lex_blank hblank]
    rfl

/-- An operand ends before the operands that follow it. -/
private theorem delimits_operands (connective : Connective) (rs : List Requirement)
    (hrest : Delimits rest) :
    Delimits ((rs.flatMap fun r => connective.separator.toList ++ r.written) ++ rest) := by
  have hblank : Text.isBlank ' ' = true := by decide
  have hand : ofStructural? '&' = some .and := rfl
  have hor : ofStructural? '|' = some .or := rfl
  cases rs with
  | nil => exact hrest
  | cons r rs =>
    rw [List.flatMap_cons, List.append_assoc, List.append_assoc]
    cases connective with
    | and => exact .blank hblank (.structural hand _)
    | or => exact .blank hblank (.structural hor _)

private theorem isWord_identity : IsWord connective.identityText := by
  cases connective <;> decide

/-- A tree is written with the tokens of its part of a scope, wherever an operand may end. -/
private def WrittenAsPart (r : Requirement) : Prop :=
  ∀ rest, Delimits rest → lex [] (r.written ++ rest) = r.part.tokens ++ lex [] rest

private theorem lex_operands (hrs : ∀ r ∈ rs, WrittenAsPart r) (hrest : Delimits rest) :
    lex [] ((rs.flatMap fun r => connective.separator.toList ++ r.written) ++ rest) =
      Part.tokensList ((rs.map part).flatMap fun part => [.sign connective, part]) ++
        lex [] rest := by
  induction rs with
  | nil => rfl
  | cons r rs ih =>
    obtain ⟨hr, hrs⟩ := List.forall_mem_cons.1 hrs
    rw [List.flatMap_cons, List.append_assoc, List.append_assoc, lex_separator,
      hr _ (delimits_operands connective rs hrest), ih hrs]
    simp [Part.tokensList, Part.tokens]

private theorem lex_join (hrs : ∀ r ∈ rs, WrittenAsPart r) (hrest : Delimits rest) :
    lex [] ((join connective rs).render.toList ++ rest) =
      Part.tokensList (Part.joined connective (rs.map part)) ++ lex [] rest := by
  cases rs with
  | nil =>
    rw [render_join_nil, isWord_identity.lex_append hrest]
    rfl
  | cons r rs =>
    obtain ⟨hr, hrs⟩ := List.forall_mem_cons.1 hrs
    rw [toList_render_join_cons, List.append_assoc, hr _ (delimits_operands connective rs hrest),
      lex_operands hrs hrest, List.map_cons, Part.joined, Part.tokensList, List.append_assoc]

private theorem writtenAsPart (hleaves : ∀ text ∈ r.leaves, IsWord text) : WrittenAsPart r := by
  induction r using joinInduction with
  | leaf text =>
    intro rest hrest
    have hword : IsWord text := hleaves text (by simp)
    rw [written_leaf, hword.lex_append hrest]
    rfl
  | node connective operands ih =>
    intro rest hrest
    have hoperands : ∀ r ∈ operands, WrittenAsPart r := fun r hr =>
      ih r hr fun text htext => hleaves text (mem_leaves_join.2 ⟨r, hr, htext⟩)
    have hopening : ofStructural? '(' = some .opening := rfl
    have hclosing : ofStructural? ')' = some .closing := rfl
    rw [written_join, List.cons_append, lex_structural hopening, List.append_assoc,
      List.singleton_append, lex_join hoperands (.structural hclosing rest),
      lex_structural hclosing, part_join, Part.tokens]
    simp

/-- The tokens of the text of a tree whose leaves are words. -/
theorem lex_render (r : Requirement) (hleaves : ∀ text ∈ r.leaves, IsWord text) :
    lex [] r.render.toList = Part.tokensList r.parts := by
  induction r using joinInduction with
  | leaf text =>
    have hword : IsWord text := hleaves text (by simp)
    have hlex := hword.lex_append .nil
    rw [List.append_nil] at hlex
    rw [render, hlex]
    rfl
  | node connective operands _ =>
    have hoperands : ∀ r ∈ operands, WrittenAsPart r := fun r hr =>
      writtenAsPart fun text htext => hleaves text (mem_leaves_join.2 ⟨r, hr, htext⟩)
    have hlex : lex [] ((join connective operands).render.toList ++ []) =
        Part.tokensList (Part.joined connective (operands.map part)) ++ lex [] [] :=
      lex_join hoperands .nil
    rw [List.append_nil] at hlex
    rw [hlex, parts_join]
    exact List.append_nil _

/-! ### What the text does not show -/

/-- Trees in which every node has two operands at least. -/
inductive Branching : Requirement → Prop
  | leaf (text : String) : Branching (.leaf text)
  | node (connective : Connective) (operands : List Requirement) (two_le : 2 ≤ operands.length)
      (branching : ∀ r ∈ operands, Branching r) : Branching (join connective operands)

private theorem rejoin_of_two_le (h : 2 ≤ rs.length) :
    rejoin connective rs = join connective rs := by
  match rs, h with
  | r :: t :: ts, _ => rfl

/-- The text shows all connectives of a tree whose nodes have two operands. -/
theorem Branching.reread_eq (h : Branching r) : r.reread = r := by
  induction h with
  | leaf text => rfl
  | node connective operands two_le branching ih =>
    have hmap : operands.map reread = operands := by
      calc
        operands.map reread = operands.map id := List.map_congr_left ih
        _ = operands := List.map_id operands
    rw [reread_join, hmap, rejoin_of_two_le two_le]

/-- Connectives that the text does not show make no difference to simplification. -/
private theorem simplify_rejoin (leafImplies : LeafImplication) (rs : List Requirement) :
    (rejoin connective rs).simplify leafImplies = (join connective rs).simplify leafImplies := by
  match rs with
  | [] =>
    have hidentity : NormalForm leafImplies (.leaf connective.identityText) := .leaf _
    change (join .and [.leaf connective.identityText]).simplify leafImplies = _
    rw [simplify_join, simplify_join]
    exact combine_singleton hidentity
  | [r] =>
    have hnormal : NormalForm leafImplies (r.simplify leafImplies) := normalForm_simplify r
    change (join .and [r]).simplify leafImplies = _
    rw [simplify_join, simplify_join, List.map_singleton, combine_singleton hnormal,
      combine_singleton hnormal]
  | r :: t :: ts => rfl

/-- What the text of a tree does not show does not outlast simplification. -/
theorem simplify_reread (leafImplies : LeafImplication) (r : Requirement) :
    r.reread.simplify leafImplies = r.simplify leafImplies := by
  induction r using joinInduction with
  | leaf text => rfl
  | node connective operands ih =>
    have hmap : (operands.map reread).map (simplify leafImplies) =
        operands.map (simplify leafImplies) := by
      rw [List.map_map]
      exact List.map_congr_left ih
    rw [reread_join, simplify_rejoin, simplify_join, simplify_join, hmap]

/-! ### Building the text of a tree -/

/-- The text of a tree whose leaves are words can be built unless the tree is too high. -/
theorem build_render (r : Requirement) (hleaves : ∀ text ∈ r.leaves, IsWord text) :
    build r.render =
      if r.height ≤ maxNesting + 1 then .ok (Part.tree r.parts)
      else .error (.nestingTooDeep r.render maxNesting) := by
  have htokens : (tokenize r.render).map PlacedToken.token = Part.tokensList r.parts := by
    rw [map_token_tokenize, lex_render r hleaves]
  rw [OpenScopes.build_eq_readAll, readAll_parts r htokens]
  by_cases hheight : r.height ≤ maxNesting + 1
  · rw [if_pos hheight, if_pos hheight]
    rfl
  · rw [if_neg hheight, if_neg hheight]
    rfl

/-- The tree of the text of a tree has the same simplification. -/
private theorem simplify_tree_parts (leafImplies : LeafImplication) (r : Requirement) :
    (Part.tree r.parts).simplify leafImplies = r.simplify leafImplies := by
  induction r using joinInduction with
  | leaf text =>
    have hleaf : NormalForm leafImplies (.leaf text) := .leaf text
    rw [tree_parts_leaf, simplify_join]
    exact combine_singleton hleaf
  | node connective operands _ => rw [tree_parts_join, simplify_reread]

/-- Take a tree whose leaves are words. Building its text fails if and only if more than 33
conjunctions and disjunctions stand on some path from the root, and then since it nests too deep.
Otherwise the tree that is built simplifies to the same tree under every relation on leaves, and it
is the same tree when the root is a node and every node has two operands at least. -/
theorem build_render_iff (r : Requirement) (hleaves : ∀ text ∈ r.leaves, IsWord text) :
    ((∃ e, build r.render = .error e) ↔ maxNesting + 1 < r.height) ∧
      (∀ e, build r.render = .error e → e = .nestingTooDeep r.render maxNesting) ∧
      ∀ t, build r.render = .ok t →
        (∀ leafImplies, t.simplify leafImplies = r.simplify leafImplies) ∧
          ((∀ text, r ≠ .leaf text) → r.Branching → t = r) := by
  by_cases hheight : r.height ≤ maxNesting + 1
  · have hbuild : build r.render = .ok (Part.tree r.parts) := by
      rw [build_render r hleaves, if_pos hheight]
    have hfails : ¬∃ e, build r.render = .error e := by
      rintro ⟨e, he⟩
      exact absurd (hbuild.symm.trans he) nofun
    refine ⟨iff_of_false hfails (by omega), fun e he => absurd ⟨e, he⟩ hfails, fun t ht => ?_⟩
    obtain rfl := Except.ok.inj (hbuild.symm.trans ht)
    refine ⟨fun leafImplies => simplify_tree_parts leafImplies r, fun hnode hbranching => ?_⟩
    induction r using joinInduction with
    | leaf text => exact absurd rfl (hnode text)
    | node connective operands _ => rw [tree_parts_join, hbranching.reread_eq]
  · have hbuild : build r.render = .error (.nestingTooDeep r.render maxNesting) := by
      rw [build_render r hleaves, if_neg hheight]
    refine ⟨iff_of_true ⟨_, hbuild⟩ (by omega), fun e he => ?_, fun t ht => ?_⟩
    · exact Except.error.inj (he.symm.trans hbuild)
    · exact absurd (hbuild.symm.trans ht) nofun

/-- A conjunction with a disjunction among its operands is built from its text. -/
theorem build_render_iff_alternative :
    let r := join .and [.leaf "Hookshot", join .or [.leaf "Bombs x2", .leaf "Bow"]]
    (∀ text ∈ r.leaves, IsWord text) ∧ r.render = "Hookshot & (Bombs x2 | Bow)" ∧ r.Branching ∧
      build r.render = .ok r := by
  intro r
  have hleaves : ∀ text ∈ r.leaves, IsWord text := by decide +kernel
  have hbranching : r.Branching := by
    refine .node .and _ (by decide) fun t ht => ?_
    obtain rfl | rfl : t = .leaf "Hookshot" ∨ t = join .or [.leaf "Bombs x2", .leaf "Bow"] := by
      simpa using ht
    · exact .leaf _
    · refine .node .or _ (by decide) fun t ht => ?_
      obtain rfl | rfl : t = .leaf "Bombs x2" ∨ t = .leaf "Bow" := by simpa using ht
      · exact .leaf _
      · exact .leaf _
  obtain ⟨hfails, -, hbuilds⟩ := build_render_iff r hleaves
  refine ⟨hleaves, by decide +kernel, hbranching, ?_⟩
  cases hbuild : build r.render with
  | error e =>
    have hheight : maxNesting + 1 < r.height := hfails.1 ⟨e, hbuild⟩
    exact absurd hheight (by decide +kernel)
  | ok t => rw [(hbuilds t hbuild).2 nofun hbranching]

end Requirement

end SeedLogic
