import SeedLogic.Proofs.Requirement.Scan
import SeedLogic.Requirement.Simplify

/-!
# Reading the parts of a tree

When atoms stand for themselves, building a text is reading its tokens one after the other, up to
the first one that does not fit, and closing the outermost scope. Every tree has parts, in which its
nodes are scopes and the connective of a node stands between each two of its operands. Read from any
place where an operand fits, the tokens of these parts all fit unless too many scopes are open at
some place, which depends on the height of the tree alone. The tree of the parts is the tree that
they are taken from, as far as the parts show the connectives of its nodes.

## Main definitions

* `OpenScopes.readAll` : the scopes that are open after some tokens, if all of these fit.
* `Requirement.part`, `Requirement.parts` : the parts of a tree.
* `Requirement.height` : the number of nodes on top of each other.
* `Requirement.reread` : the tree of the parts of a tree.

## Main results

* `OpenScopes.build_eq_readAll` : building is reading all tokens.
* `Requirement.readAll_parts` : reading the parts of a tree.
* `Requirement.tree_parts_leaf`, `Requirement.tree_parts_join` : the tree of the parts of a tree.
-/

namespace SeedLogic

open Requirement

/-! ### Reading all tokens -/

namespace OpenScopes

variable {requirement : String} {scopes : OpenScopes} {placed : PlacedToken}
  {tokens others : List PlacedToken}

/-- The scopes that are open after some tokens, or the error of the first token that does not
fit. -/
def readAll (requirement : String) (scopes : OpenScopes) :
    List PlacedToken → Except LogicError OpenScopes
  | [] => .ok scopes
  | placed :: tokens =>
    match scopes.fault? requirement placed with
    | some e => .error e
    | none => (scopes.read placed.token).readAll requirement tokens

/-- The tree of a text once all tokens are read. -/
def finish (requirement : String) (scopes : OpenScopes) : Except LogicError Requirement :=
  if scopes.outer = [] then .ok (Part.tree scopes.innermost)
  else .error (.unbalancedParentheses requirement requirement.utf8ByteSize)

theorem readAll_of_fits (h : scopes.fault? requirement placed = none) :
    scopes.readAll requirement (placed :: tokens) =
      (scopes.read placed.token).readAll requirement tokens := by
  rw [readAll, h]

theorem readAll_of_fault {e : LogicError} (h : scopes.fault? requirement placed = some e) :
    scopes.readAll requirement (placed :: tokens) = .error e := by
  rw [readAll, h]

/-- A connective is read unless the other one occurs in the innermost scope. -/
theorem readAll_sign {connective : Connective} {position : Nat}
    (hother : connective.other ∉ Part.connectives scopes.innermost) :
    scopes.readAll requirement (⟨connective.token, position⟩ :: tokens) =
      (scopes.add (.sign connective)).readAll requirement tokens := by
  have hfits : scopes.fault? requirement ⟨connective.token, position⟩ = none := by
    rw [fault?_connective, if_neg hother]
  rw [readAll_of_fits hfits, read_connective]

/-- Reading goes on with the tokens that follow. -/
theorem readAll_append_of_ok {scopes' : OpenScopes}
    (h : scopes.readAll requirement tokens = .ok scopes') :
    scopes.readAll requirement (tokens ++ others) = scopes'.readAll requirement others := by
  induction tokens generalizing scopes with
  | nil =>
    obtain rfl := Except.ok.inj h
    rfl
  | cons placed tokens ih =>
    cases hfault : scopes.fault? requirement placed with
    | some e => exact absurd ((readAll_of_fault hfault).symm.trans h) nofun
    | none =>
      rw [readAll_of_fits hfault] at h
      rw [List.cons_append, readAll_of_fits hfault, ih h]

/-- Reading stops at the first token that does not fit. -/
theorem readAll_append_of_error {e : LogicError}
    (h : scopes.readAll requirement tokens = .error e) :
    scopes.readAll requirement (tokens ++ others) = .error e := by
  induction tokens generalizing scopes with
  | nil => exact absurd h nofun
  | cons placed tokens ih =>
    cases hfault : scopes.fault? requirement placed with
    | some e' =>
      rw [readAll_of_fault hfault] at h
      rw [List.cons_append, readAll_of_fault hfault, h]
    | none =>
      rw [readAll_of_fits hfault] at h
      rw [List.cons_append, readAll_of_fits hfault, ih h]

private theorem run_resume_eq_readAll (huniform : scopes.Uniform) :
    Id.run (resume (fun atom => (pure (.leaf atom) : ExceptT LogicError Id Requirement))
      requirement scopes tokens).run =
        (scopes.readAll requirement tokens).bind (finish requirement) := by
  obtain ⟨kept, hkept⟩ := exists_expandAll_eq_pure (m := Id) scopes
  induction tokens generalizing scopes kept with
  | nil =>
    by_cases hclosed : scopes.outer = []
    · rw [resume_nil_of_closed hclosed, substM_pure_leaf, readAll, Except.bind, finish,
        if_pos hclosed]
      rfl
    · rw [resume_nil_of_open hclosed, hkept, readAll, Except.bind, finish, if_neg hclosed]
      rfl
  | cons placed tokens ih =>
    cases hfault : scopes.fault? requirement placed with
    | some e =>
      rw [resume_of_fault huniform hfault, hkept, readAll_of_fault hfault]
      rfl
    | none =>
      obtain ⟨kept', hkept'⟩ := exists_expandAll_eq_pure (m := Id) (scopes.read placed.token)
      rw [resume_of_fits hfault, readAll_of_fits hfault]
      exact ih (huniform.read hfault) kept' hkept'

/-- Building a text whose atoms stand for themselves is reading all of its tokens. -/
theorem build_eq_readAll (requirement : String) :
    build requirement =
      (readAll requirement {} (Token.tokenize requirement)).bind (finish requirement) := by
  rw [build, buildWith_eq_resume]
  exact run_resume_eq_readAll uniform_empty

end OpenScopes

/-! ### The parts of a tree -/

/-- The parts of a scope with some operands: the connective stands between each two of them, and its
identity terminal stands for none. -/
def Part.joined (connective : Connective) : List Part → List Part
  | [] => [.atom connective.identityText]
  | part :: parts => part :: parts.flatMap fun part => [.sign connective, part]

namespace Requirement

mutual

/-- A tree as part of a scope. -/
def part : Requirement → Part
  | .leaf text => .atom text
  | .all operands => .scope (Part.joined .and (partList operands))
  | .any operands => .scope (Part.joined .or (partList operands))

/-- Trees as parts of a scope. -/
def partList : List Requirement → List Part
  | [] => []
  | r :: rs => part r :: partList rs

end

/-- The parts of a tree that is not put in parentheses. -/
def parts : Requirement → List Part
  | .leaf text => [.atom text]
  | .all operands => Part.joined .and (partList operands)
  | .any operands => Part.joined .or (partList operands)

mutual

/-- The greatest number of conjunctions and disjunctions on a path from the root. -/
def height : Requirement → Nat
  | .leaf _ => 0
  | .all operands => 1 + heightList operands
  | .any operands => 1 + heightList operands

/-- The greatest height of some trees. -/
def heightList : List Requirement → Nat
  | [] => 0
  | r :: rs => max (height r) (heightList rs)

end

variable {connective : Connective}

private theorem partList_eq_map (rs : List Requirement) : partList rs = rs.map part := by
  induction rs with
  | nil => rfl
  | cons r rs ih => rw [partList, ih, List.map_cons]

theorem part_join (rs : List Requirement) :
    (join connective rs).part = .scope (Part.joined connective (rs.map part)) := by
  cases connective <;> rw [join, part, partList_eq_map]

theorem parts_join (rs : List Requirement) :
    (join connective rs).parts = Part.joined connective (rs.map part) := by
  cases connective <;> rw [join, parts, partList_eq_map]

theorem height_join (rs : List Requirement) :
    (join connective rs).height = 1 + heightList rs := by
  cases connective <;> rw [join, height]

/-- A tree as part of a scope is an operand. -/
theorem isOperand_part (r : Requirement) : r.part.isOperand = true := by
  cases r <;> rfl

/-! ### Reading the parts of a tree -/

/-- The given scopes, unless so many scopes are not allowed. -/
private def allowing (requirement : String) (depth : Nat) (scopes : OpenScopes) :
    Except LogicError OpenScopes :=
  if depth ≤ maxNesting then .ok scopes else .error (.nestingTooDeep requirement maxNesting)

/-- Tokens are read one part after the other, as far as the scopes are allowed for each of them. -/
private theorem readAll_append {requirement : String} {scopes scopes' scopes'' : OpenScopes}
    {tokens others : List PlacedToken} {depth depth' : Nat}
    (h : scopes.readAll requirement tokens = allowing requirement depth scopes')
    (h' : scopes'.readAll requirement others = allowing requirement depth' scopes'') :
    scopes.readAll requirement (tokens ++ others) =
      allowing requirement (max depth depth') scopes'' := by
  by_cases hdepth : depth ≤ maxNesting
  · have hmax : max depth depth' ≤ maxNesting ↔ depth' ≤ maxNesting := by omega
    rw [allowing, if_pos hdepth] at h
    rw [OpenScopes.readAll_append_of_ok h, h']
    simp only [allowing, hmax]
  · have hmax : ¬max depth depth' ≤ maxNesting := by omega
    rw [allowing, if_neg hdepth] at h
    rw [OpenScopes.readAll_append_of_error h, allowing, if_neg hmax]

/-- From every place where an operand fits, the tokens of a tree are read as far as the scopes are
allowed that they open. -/
private def ReadAsPart (requirement : String) (r : Requirement) : Prop :=
  ∀ (scopes : OpenScopes) (placed : List PlacedToken), scopes.outer.length ≤ maxNesting →
    scopes.afterOperand = false → placed.map PlacedToken.token = r.part.tokens →
      scopes.readAll requirement placed =
        allowing requirement (scopes.outer.length + r.height) (scopes.add r.part)

variable {requirement : String} {rs : List Requirement} {parts : List Part}
  {outer : List (List Part)} {placed : List PlacedToken}

private theorem readAll_operands (hrs : ∀ r ∈ rs, ReadAsPart requirement r)
    (hopen : outer.length ≤ maxNesting) (hother : connective.other ∉ Part.connectives parts)
    (hplaced : placed.map PlacedToken.token =
      Part.tokensList ((rs.map part).flatMap fun part => [.sign connective, part])) :
    OpenScopes.readAll requirement ⟨parts, outer⟩ placed =
      allowing requirement (outer.length + heightList rs)
        ⟨parts ++ (rs.map part).flatMap fun part => [.sign connective, part], outer⟩ := by
  induction rs generalizing parts placed with
  | nil =>
    obtain rfl : placed = [] := List.map_eq_nil_iff.1 hplaced
    simp [OpenScopes.readAll, allowing, heightList, hopen]
  | cons r rs ih =>
    obtain ⟨hr, hrs⟩ := List.forall_mem_cons.1 hrs
    simp only [List.map_cons, List.flatMap_cons, List.cons_append, List.nil_append,
      Part.tokensList, Part.tokens] at hplaced
    obtain ⟨⟨sign, position⟩, rest, rfl, hsign, hrest⟩ := List.map_eq_cons_iff.1 hplaced
    obtain rfl : sign = connective.token := hsign
    obtain ⟨operand, others, rfl, hoperand, hothers⟩ := List.map_eq_append_iff.1 hrest
    have hconnectives : connective.other ∉
        Part.connectives (parts ++ [.sign connective] ++ [r.part]) := by
      rw [Part.connectives_append_operand _ r.isOperand_part]
      exact Part.other_notMem_append_sign hother
    have hread := hr ⟨parts ++ [.sign connective], outer⟩ operand hopen
      (by simp [OpenScopes.afterOperand, Part.isOperand]) hoperand
    have hread' := ih hrs hconnectives hothers
    have hheight : outer.length + heightList (r :: rs) =
        max (outer.length + r.height) (outer.length + heightList rs) := by
      rw [heightList, Nat.add_max_add_left]
    rw [OpenScopes.readAll_sign hother, OpenScopes.add, readAll_append hread hread', hheight]
    simp only [List.map_cons, List.flatMap_cons, List.append_assoc, List.cons_append,
      List.nil_append]

private theorem readAll_joined (hrs : ∀ r ∈ rs, ReadAsPart requirement r)
    (hopen : outer.length ≤ maxNesting)
    (hplaced : placed.map PlacedToken.token =
      Part.tokensList (Part.joined connective (rs.map part))) :
    OpenScopes.readAll requirement ⟨[], outer⟩ placed =
      allowing requirement (outer.length + heightList rs)
        ⟨Part.joined connective (rs.map part), outer⟩ := by
  cases rs with
  | nil =>
    simp only [List.map_nil, Part.joined, Part.tokensList, Part.tokens, List.append_nil] at hplaced
    obtain ⟨atom, rest, rfl, hatom, hrest⟩ := List.map_eq_cons_iff.1 hplaced
    obtain rfl := List.map_eq_nil_iff.1 hrest
    obtain ⟨token, position⟩ := atom
    obtain rfl : token = .atom connective.identityText := hatom
    have hfits : OpenScopes.fault? requirement ⟨[], outer⟩
        ⟨.atom connective.identityText, position⟩ = none := by
      simp [OpenScopes.fault?, OpenScopes.afterOperand]
    rw [OpenScopes.readAll_of_fits hfits]
    simp [OpenScopes.readAll, OpenScopes.read, OpenScopes.add, allowing, heightList, hopen,
      Part.joined]
  | cons r rs =>
    obtain ⟨hr, hrs⟩ := List.forall_mem_cons.1 hrs
    simp only [List.map_cons, Part.joined, Part.tokensList] at hplaced
    obtain ⟨operand, others, rfl, hoperand, hothers⟩ := List.map_eq_append_iff.1 hplaced
    have hread := hr ⟨[], outer⟩ operand hopen rfl hoperand
    have hconnectives : connective.other ∉ Part.connectives [r.part] := by
      rw [← List.nil_append [r.part], Part.connectives_append_operand _ r.isOperand_part]
      simp [Part.connectives]
    have hread' : OpenScopes.readAll requirement ⟨[r.part], outer⟩ others =
        allowing requirement (outer.length + heightList rs)
          ⟨[r.part] ++ (rs.map part).flatMap fun part => [.sign connective, part], outer⟩ :=
      readAll_operands hrs hopen hconnectives hothers
    have hheight : outer.length + heightList (r :: rs) =
        max (outer.length + r.height) (outer.length + heightList rs) := by
      rw [heightList, Nat.add_max_add_left]
    rw [readAll_append hread hread', hheight]
    rfl

/-- A tree is read as part of a scope. -/
private theorem readAll_part (r : Requirement) : ReadAsPart requirement r := by
  induction r using joinInduction with
  | leaf text =>
    intro scopes placed hopen hafter hplaced
    simp only [part, Part.tokens] at hplaced
    obtain ⟨⟨token, position⟩, rest, rfl, hatom, hrest⟩ := List.map_eq_cons_iff.1 hplaced
    obtain rfl := List.map_eq_nil_iff.1 hrest
    obtain rfl : token = .atom text := hatom
    have hfits : scopes.fault? requirement ⟨.atom text, position⟩ = none := by
      simp [OpenScopes.fault?, hafter]
    rw [OpenScopes.readAll_of_fits hfits]
    simp [OpenScopes.readAll, OpenScopes.read, allowing, height, hopen, part]
  | node connective operands ih =>
    intro scopes placed hopen hafter hplaced
    rw [part_join, Part.tokens, List.append_assoc, List.singleton_append] at hplaced
    obtain ⟨⟨token, position⟩, rest, rfl, hopening, hrest⟩ := List.map_eq_cons_iff.1 hplaced
    obtain ⟨inner, last, rfl, hinner, hlast⟩ := List.map_eq_append_iff.1 hrest
    obtain ⟨⟨token', position'⟩, rest, rfl, hclosing, hrest⟩ := List.map_eq_cons_iff.1 hlast
    obtain rfl := List.map_eq_nil_iff.1 hrest
    obtain rfl : token = .opening := hopening
    obtain rfl : token' = .closing := hclosing
    rw [height_join, part_join]
    by_cases hdeep : maxNesting ≤ scopes.outer.length
    · have hfault : scopes.fault? requirement ⟨.opening, position⟩ =
          some (.nestingTooDeep requirement maxNesting) := by
        simp [OpenScopes.fault?, hafter, hdeep]
      have hheight : ¬scopes.outer.length + (1 + heightList operands) ≤ maxNesting := by omega
      rw [OpenScopes.readAll_of_fault hfault, allowing, if_neg hheight]
    · have hfits : scopes.fault? requirement ⟨.opening, position⟩ = none := by
        simp [OpenScopes.fault?, hafter, hdeep]
      have hopen' : (scopes.innermost :: scopes.outer).length ≤ maxNesting := by
        rw [List.length_cons]
        omega
      have hread := readAll_joined ih hopen' hinner
      have hclose : OpenScopes.readAll requirement
          ⟨Part.joined connective (operands.map part), scopes.innermost :: scopes.outer⟩
            [⟨.closing, position'⟩] =
          allowing requirement 0
            (scopes.add (.scope (Part.joined connective (operands.map part)))) :=
        rfl
      have hheight : scopes.outer.length + (1 + heightList operands) =
          max ((scopes.innermost :: scopes.outer).length + heightList operands) 0 := by
        rw [List.length_cons]
        omega
      rw [OpenScopes.readAll_of_fits hfits, hheight]
      exact readAll_append hread hclose

/-- The tokens of the parts of a tree are read unless the tree is too high. -/
theorem readAll_parts (r : Requirement)
    (hplaced : placed.map PlacedToken.token = Part.tokensList r.parts) :
    OpenScopes.readAll requirement {} placed =
      if r.height ≤ maxNesting + 1 then .ok { innermost := r.parts }
      else .error (.nestingTooDeep requirement maxNesting) := by
  induction r using joinInduction with
  | leaf text =>
    have hpart : ReadAsPart requirement (.leaf text) := readAll_part (.leaf text)
    rw [hpart {} placed (Nat.zero_le maxNesting) rfl
      (by simpa [parts, part, Part.tokensList] using hplaced)]
    rfl
  | node connective operands _ =>
    rw [parts_join] at hplaced
    have hoperands : ∀ r ∈ operands, ReadAsPart requirement r := fun r _ => readAll_part r
    have hopen : ([] : List (List Part)).length ≤ maxNesting := Nat.zero_le maxNesting
    have hread := readAll_joined hoperands hopen hplaced
    have hheight : (join connective operands).height ≤ maxNesting + 1 ↔
        heightList operands ≤ maxNesting := by
      rw [height_join]
      omega
    rw [hread, parts_join]
    simp only [allowing, hheight, List.length_nil, Nat.zero_add]

/-! ### The tree of the parts -/

/-- A node whose parts show its connective only if it has two operands. It is a conjunction
otherwise, in which the identity terminal stands for no operand. -/
def rejoin (connective : Connective) : List Requirement → Requirement
  | [] => .all [.leaf connective.identityText]
  | [r] => .all [r]
  | rs => join connective rs

mutual

/-- The tree of a tree's parts when it stands as part of a scope. -/
def reread : Requirement → Requirement
  | .leaf text => .leaf text
  | .all operands => rejoin .and (rereadList operands)
  | .any operands => rejoin .or (rereadList operands)

/-- The trees of the parts of some trees. -/
def rereadList : List Requirement → List Requirement
  | [] => []
  | r :: rs => reread r :: rereadList rs

end

private theorem rereadList_eq_map (rs : List Requirement) : rereadList rs = rs.map reread := by
  induction rs with
  | nil => rfl
  | cons r rs ih => rw [rereadList, ih, List.map_cons]

theorem reread_join (rs : List Requirement) :
    (join connective rs).reread = rejoin connective (rs.map reread) := by
  cases connective <;> rw [join, reread, rereadList_eq_map]

private theorem connective?_part (r : Requirement) : r.part.connective? = none := by
  cases r <;> rfl

/-- A scope with two operands shows its connective. -/
private theorem joining_joined (r t : Requirement) (rs : List Requirement) :
    Part.joining (Part.joined connective ((r :: t :: rs).map part)) = connective := by
  have hmem (c : Connective) :
      c ∈ Part.connectives (Part.joined connective ((r :: t :: rs).map part)) ↔ c = connective := by
    rw [Part.connectives, List.mem_filterMap]
    constructor
    · rintro ⟨p, hp, hc⟩
      rcases List.mem_cons.1 hp with rfl | hp
      · rw [r.connective?_part] at hc
        cases hc
      · obtain ⟨q, hq, hp⟩ := List.mem_flatMap.1 hp
        obtain ⟨u, -, rfl⟩ := List.mem_map.1 hq
        obtain rfl | rfl : p = .sign connective ∨ p = u.part := by simpa using hp
        · exact (Option.some.inj hc).symm
        · rw [u.connective?_part] at hc
          cases hc
    · rintro rfl
      exact ⟨.sign c, by simp [Part.joined], rfl⟩
  rw [Part.joining]
  cases connective with
  | and => exact if_neg fun hor => Connective.noConfusion ((hmem .or).1 hor)
  | or => exact if_pos ((hmem .or).2 rfl)

/-- The tree of the parts of a node. -/
private theorem tree_joined (hrs : ∀ r ∈ rs, r.part.operands = [r.reread]) :
    Part.tree (Part.joined connective (rs.map part)) = rejoin connective (rs.map reread) := by
  have hoperands (ts : List Requirement) (hts : ∀ t ∈ ts, t.part.operands = [t.reread]) :
      Part.operandsList ((ts.map part).flatMap fun part => [.sign connective, part]) =
        ts.map reread := by
    induction ts with
    | nil => rfl
    | cons t ts ih =>
      obtain ⟨ht, hts⟩ := List.forall_mem_cons.1 hts
      simp only [List.map_cons, List.flatMap_cons, List.cons_append, List.nil_append,
        Part.operandsList, Part.operands, ht, ih hts]
  cases rs with
  | nil => rfl
  | cons r rs =>
  obtain ⟨hr, hrest⟩ := List.forall_mem_cons.1 hrs
  cases rs with
  | nil =>
    have hjoining : Part.joining [r.part] = .and := by
      simp [Part.joining, Part.connectives, r.connective?_part]
    simp [Part.joined, Part.tree, Part.operandsList, hjoining, hr, rejoin, join]
  | cons t rs =>
    have hjoined : Part.joined connective ((r :: t :: rs).map part) =
        r.part :: ((t :: rs).map part).flatMap fun part => [.sign connective, part] := rfl
    rw [Part.tree, joining_joined, hjoined, Part.operandsList, hr, hoperands _ hrest]
    rfl

theorem operands_part (r : Requirement) : r.part.operands = [r.reread] := by
  induction r using joinInduction with
  | leaf text => rw [part, Part.operands, reread]
  | node connective operands ih =>
    rw [part_join, Part.operands, reread_join, ← tree_joined ih, Part.tree]

/-- A text that is a single atom is a conjunction of one operand. -/
theorem tree_parts_leaf (text : String) :
    Part.tree (leaf text).parts = join .and [.leaf text] := rfl

/-- The tree of the parts of a node is the tree that is reread. -/
theorem tree_parts_join (rs : List Requirement) :
    Part.tree (join connective rs).parts = (join connective rs).reread := by
  rw [parts_join, reread_join, tree_joined fun r _ => operands_part r]

end Requirement

end SeedLogic
