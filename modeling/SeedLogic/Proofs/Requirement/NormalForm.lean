import SeedLogic.Requirement.Simplify

/-!
# Normal forms of requirement trees

A tree is in normal form when it is a leaf, or a node with at least two operands in normal form of
which none is a terminal, none is a node of the same connective, and none absorbs another one.
Simplified trees are in normal form, and the trees that simplification leaves alone are exactly
those in normal form. Nothing is assumed about the relation on leaves.

The loop that offers the operands one by one compares each of them with those kept before in both
directions. Hence the kept operands never absorb each other, although absorption need not be
transitive.

## Main definitions

* `Requirement.Irredundant` : operands of which none absorbs another one.
* `Requirement.NormalForm` : trees in normal form.

## Main results

* `Requirement.irredundant_offer` : one step of the absorption loop.
* `Requirement.simplify_eq_self_iff_normalForm` : simplification reaches and fixes normal forms.
-/

namespace SeedLogic.Requirement

variable (leafImplies : LeafImplication)

/-- No operand absorbs another one at a different position. -/
def Irredundant (connective : Connective) (operands : List Requirement) : Prop :=
  operands.Pairwise fun a b =>
    absorbs leafImplies connective a b = false ∧ absorbs leafImplies connective b a = false

/-- A tree that may stand as an operand of a node without being folded or spliced: neither a
terminal nor a node of the same connective. -/
structure Foreign (connective : Connective) (r : Requirement) : Prop where
  not_terminal : ∀ text, r = .leaf text → isTerminal text = false
  not_join : ∀ operands, r ≠ join connective operands

/-- Trees that are leaves, or nodes of at least two operands that cannot be simplified any
further. -/
inductive NormalForm : Requirement → Prop
  | leaf (text : String) : NormalForm (.leaf text)
  | node (connective : Connective) (operands : List Requirement) (two_le : 2 ≤ operands.length)
      (normal : ∀ r ∈ operands, NormalForm r) (foreign : ∀ r ∈ operands, Foreign connective r)
      (irredundant : Irredundant leafImplies connective operands) :
      NormalForm (join connective operands)

variable {leafImplies} {connective : Connective}

private theorem join_inj {c d : Connective} {rs ts : List Requirement}
    (h : join c rs = join d ts) : c = d ∧ rs = ts := by
  cases c <;> cases d <;> simp_all [join]

/-- The operands of a node in normal form. -/
theorem NormalForm.operands {operands : List Requirement}
    (h : NormalForm leafImplies (join connective operands)) :
    2 ≤ operands.length ∧ (∀ r ∈ operands, NormalForm leafImplies r) ∧
      (∀ r ∈ operands, Foreign connective r) ∧ Irredundant leafImplies connective operands := by
  generalize heq : join connective operands = r at h
  cases h with
  | leaf text => cases connective <;> simp [join] at heq
  | node c rs two_le normal foreign irredundant =>
    obtain ⟨rfl, rfl⟩ := join_inj heq
    exact ⟨two_le, normal, foreign, irredundant⟩

/-! ### Splicing and terminals -/

private theorem isTerminal_annihilator : isTerminal connective.annihilatorText = true := by
  cases connective <;> simp [isTerminal, Connective.annihilatorText]

/-- The terminal that may be left out is a terminal. -/
theorem isTerminal_identity : isTerminal connective.identityText = true := by
  cases connective <;> simp [isTerminal, Connective.identityText]

/-- A terminal decides the nodes of a connective or may be left out of them. -/
theorem terminal_cases (connective : Connective) {text : String}
    (h : isTerminal text = true) :
    text = connective.annihilatorText ∨ text = connective.identityText := by
  cases connective <;>
    simpa [isTerminal, Connective.annihilatorText, Connective.identityText, or_comm] using h

/-- Flattening keeps foreign operands as they are. -/
theorem flatten_eq_some_self {rs : List Requirement} (h : ∀ r ∈ rs, Foreign connective r) :
    flatten connective rs = some rs := by
  induction rs with
  | nil => rfl
  | cons r rs ih =>
    have hr : Foreign connective r := h r List.mem_cons_self
    have hannihilator : r ≠ .leaf connective.annihilatorText := fun heq =>
      Bool.false_ne_true ((hr.not_terminal _ heq).symm.trans isTerminal_annihilator)
    have hidentity : r ≠ .leaf connective.identityText := fun heq =>
      Bool.false_ne_true ((hr.not_terminal _ heq).symm.trans isTerminal_identity)
    rw [flatten, if_neg hannihilator, if_neg hidentity,
      ih fun t ht => h t (List.mem_cons_of_mem r ht), splice_eq_singleton hr.not_join]
    rfl

/-- A tree in normal form contributes operands in normal form that cannot be spliced any
further. -/
private theorem normal_of_mem_splice {r t : Requirement} (hr : NormalForm leafImplies r)
    (hannihilator : r ≠ .leaf connective.annihilatorText)
    (hidentity : r ≠ .leaf connective.identityText) (ht : t ∈ splice connective r) :
    NormalForm leafImplies t ∧ Foreign connective t := by
  cases hr with
  | leaf text =>
    have hjoin : ∀ operands, leaf text ≠ join connective operands := fun operands heq => by
      cases connective <;> simp [join] at heq
    obtain rfl : t = .leaf text := by simpa [splice_eq_singleton hjoin] using ht
    refine ⟨.leaf text, fun text' heq => ?_, hjoin⟩
    obtain rfl : text = text' := by simpa using heq
    refine Bool.eq_false_iff.2 fun hterminal => ?_
    rcases terminal_cases connective hterminal with rfl | rfl
    · exact hannihilator rfl
    · exact hidentity rfl
  | node c rs two_le normal foreign irredundant =>
    by_cases hc : c = connective
    · subst hc
      rw [splice_join] at ht
      exact ⟨normal t ht, foreign t ht⟩
    · have hforeign : Foreign connective (join c rs) :=
        ⟨fun text heq => by cases c <;> simp [join] at heq,
          fun operands heq => hc (join_inj heq).1⟩
      rw [splice_eq_singleton hforeign.not_join, List.mem_singleton] at ht
      exact ht ▸ ⟨.node c rs two_le normal foreign irredundant, hforeign⟩

/-- Flattening simplified operands leaves operands in normal form that are foreign to the
node. -/
theorem normal_of_mem_flatten {rs flat : List Requirement}
    (hrs : ∀ r ∈ rs, NormalForm leafImplies r) (h : flatten connective rs = some flat) :
    ∀ t ∈ flat, NormalForm leafImplies t ∧ Foreign connective t := by
  induction rs generalizing flat with
  | nil =>
    obtain rfl : [] = flat := by simpa [flatten] using h
    simp
  | cons r rs ih =>
    have hrest : ∀ t ∈ rs, NormalForm leafImplies t := fun t ht =>
      hrs t (List.mem_cons_of_mem r ht)
    rw [flatten] at h
    split at h
    case isTrue => exact absurd h (by simp)
    case isFalse hannihilator =>
      split at h
      case isTrue => exact ih hrest h
      case isFalse hidentity =>
        obtain ⟨rest, hflat, rfl⟩ := Option.map_eq_some_iff.1 h
        intro t ht
        rcases List.mem_append.1 ht with ht | ht
        · exact normal_of_mem_splice (hrs r List.mem_cons_self) hannihilator hidentity ht
        · exact ih hrest hflat t ht

/-! ### Absorption -/

/-- Offering an operand to irredundant ones leaves irredundant ones: the operand is compared with
each of them in both directions. -/
theorem irredundant_offer {kept : List Requirement} {candidate : Requirement}
    (h : Irredundant leafImplies connective kept) :
    Irredundant leafImplies connective (offer leafImplies connective kept candidate) := by
  rw [offer]
  split
  case isTrue => exact h
  case isFalse hkeep =>
    refine List.pairwise_append.2 ⟨h.filter _, List.pairwise_singleton _ _, ?_⟩
    intro r hr t ht
    obtain rfl : t = candidate := by simpa using ht
    obtain ⟨hmem, hdropped⟩ := List.mem_filter.1 hr
    have hskipped : ¬absorbs leafImplies connective r t = true := fun habsorbs =>
      hkeep (List.any_eq_true.2 ⟨r, hmem, habsorbs⟩)
    exact ⟨Bool.eq_false_iff.2 hskipped, by simpa using hdropped⟩

private theorem irredundant_foldl_offer {kept candidates : List Requirement}
    (h : Irredundant leafImplies connective kept) :
    Irredundant leafImplies connective
      (candidates.foldl (offer leafImplies connective) kept) := by
  induction candidates generalizing kept with
  | nil => exact h
  | cons r rs ih => exact ih (irredundant_offer h)

private theorem mem_of_mem_offer {kept : List Requirement} {candidate r : Requirement}
    (h : r ∈ offer leafImplies connective kept candidate) : r ∈ kept ∨ r = candidate := by
  rw [offer] at h
  split at h
  case isTrue => exact Or.inl h
  case isFalse =>
    rcases List.mem_append.1 h with h | h
    · exact Or.inl (List.mem_filter.1 h).1
    · exact Or.inr (by simpa using h)

/-- The absorption loop keeps nothing but operands that were there before. -/
theorem mem_of_mem_foldl_offer {kept candidates : List Requirement} {r : Requirement}
    (h : r ∈ candidates.foldl (offer leafImplies connective) kept) :
    r ∈ kept ∨ r ∈ candidates := by
  induction candidates generalizing kept with
  | nil => exact Or.inl h
  | cons t ts ih =>
    rcases ih h with hoffer | hrest
    · rcases mem_of_mem_offer hoffer with hkept | rfl
      · exact Or.inl hkept
      · exact Or.inr List.mem_cons_self
    · exact Or.inr (List.mem_cons_of_mem t hrest)

/-- The absorption loop keeps all of the operands that do not absorb each other. -/
theorem foldl_offer_eq_append {kept candidates : List Requirement}
    (h : Irredundant leafImplies connective (kept ++ candidates)) :
    candidates.foldl (offer leafImplies connective) kept = kept ++ candidates := by
  induction candidates generalizing kept with
  | nil => simp
  | cons r rs ih =>
    obtain ⟨-, -, hacross⟩ := List.pairwise_append.1 h
    have hskip : ¬(kept.any fun t => absorbs leafImplies connective t r) = true := by
      rw [List.any_eq_true]
      rintro ⟨t, hmem, habsorbs⟩
      exact Bool.false_ne_true ((hacross t hmem r List.mem_cons_self).1.symm.trans habsorbs)
    have hkeep : (kept.filter fun t => !absorbs leafImplies connective r t) = kept := by
      refine List.filter_eq_self.2 fun t hmem => ?_
      simp [(hacross t hmem r List.mem_cons_self).2]
    have hoffer : offer leafImplies connective kept r = kept ++ [r] := by
      rw [offer, if_neg hskip, hkeep]
    rw [List.foldl_cons, hoffer, ih (by simpa using h), List.append_assoc]
    rfl

/-! ### Nodes and trees -/

/-- Combining operands in normal form gives a normal form. -/
theorem normalForm_combine {rs : List Requirement} (h : ∀ r ∈ rs, NormalForm leafImplies r) :
    NormalForm leafImplies (combine leafImplies connective rs) := by
  rw [combine]
  split
  case h_1 => exact .leaf _
  case h_2 flat hflat =>
    have hkept : ∀ r ∈ flat.foldl (offer leafImplies connective) [],
        NormalForm leafImplies r ∧ Foreign connective r := fun r hr =>
      normal_of_mem_flatten h hflat r ((mem_of_mem_foldl_offer hr).resolve_left (by simp))
    have hirredundant : Irredundant leafImplies connective
        (flat.foldl (offer leafImplies connective) []) :=
      irredundant_foldl_offer List.Pairwise.nil
    generalize flat.foldl (offer leafImplies connective) [] = kept at hkept hirredundant
    match kept with
    | [] => exact .leaf _
    | [r] => exact (hkept r List.mem_cons_self).1
    | r :: t :: ts =>
      exact .node connective _ (by simp) (fun x hx => (hkept x hx).1)
        (fun x hx => (hkept x hx).2) hirredundant

/-- Simplified trees are in normal form. -/
theorem normalForm_simplify (r : Requirement) :
    NormalForm leafImplies (r.simplify leafImplies) := by
  induction r using joinInduction with
  | leaf text => exact .leaf text
  | node connective operands ih =>
    rw [simplify_join]
    refine normalForm_combine fun t ht => ?_
    obtain ⟨r, hr, rfl⟩ := List.mem_map.1 ht
    exact ih r hr

private theorem collapse_of_two_le {rs : List Requirement} (h : 2 ≤ rs.length) :
    collapse connective rs = join connective rs := by
  match rs, h with
  | r :: t :: ts, _ => rfl

/-- A node over a single operand in normal form is combined into this operand. -/
theorem combine_singleton {r : Requirement} (h : NormalForm leafImplies r) :
    combine leafImplies connective [r] = r := by
  by_cases hannihilator : r = .leaf connective.annihilatorText
  · rw [combine, flatten, if_pos hannihilator]
    exact hannihilator.symm
  by_cases hidentity : r = .leaf connective.identityText
  · rw [combine, flatten, if_neg hannihilator, if_pos hidentity]
    exact hidentity.symm
  have hflatten : flatten connective [r] = some (splice connective r) := by
    rw [flatten, if_neg hannihilator, if_neg hidentity, flatten, Option.map_some, List.append_nil]
  by_cases hjoin : ∃ operands, r = join connective operands
  · obtain ⟨operands, rfl⟩ := hjoin
    obtain ⟨two_le, -, -, irredundant⟩ := h.operands
    have hkept : operands.foldl (offer leafImplies connective) [] = operands :=
      foldl_offer_eq_append irredundant
    rw [combine, hflatten, splice_join]
    simp only [hkept]
    exact collapse_of_two_le two_le
  · rw [combine, hflatten, splice_eq_singleton fun operands heq => hjoin ⟨operands, heq⟩]
    rfl

/-- Simplification leaves a normal form alone. -/
theorem NormalForm.simplify_eq_self {r : Requirement} (h : NormalForm leafImplies r) :
    r.simplify leafImplies = r := by
  induction h with
  | leaf text => rfl
  | node connective operands two_le normal foreign irredundant ih =>
    have hmap : operands.map (simplify leafImplies) = operands := by
      calc
        operands.map (simplify leafImplies) = operands.map id := List.map_congr_left ih
        _ = operands := List.map_id operands
    rw [simplify_join, hmap, combine, flatten_eq_some_self foreign]
    have hkept : operands.foldl (offer leafImplies connective) [] = operands :=
      foldl_offer_eq_append irredundant
    simp only [hkept]
    exact collapse_of_two_le two_le

/-- Simplification always ends in a normal form, leaves exactly the normal forms alone, and is
idempotent, whatever the relation on leaves. -/
theorem simplify_eq_self_iff_normalForm (leafImplies : LeafImplication) :
    (∀ r : Requirement, NormalForm leafImplies (r.simplify leafImplies)) ∧
      (∀ r : Requirement, r.simplify leafImplies = r ↔ NormalForm leafImplies r) ∧
      ∀ r : Requirement,
        (r.simplify leafImplies).simplify leafImplies = r.simplify leafImplies :=
  ⟨normalForm_simplify,
    fun r => ⟨fun h => h ▸ normalForm_simplify r, NormalForm.simplify_eq_self⟩,
    fun r => (normalForm_simplify r).simplify_eq_self⟩

end SeedLogic.Requirement
