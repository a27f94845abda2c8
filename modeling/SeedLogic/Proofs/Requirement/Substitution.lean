import SeedLogic.Requirement.Evaluate

/-!
# Substitution of trees for leaves

A tree may be put in place of every leaf of a tree, either at once or by a computation that is run
for each leaf from left to right. A computation that may fail or have no result substitutes at once
what it gives for each leaf, provided that it gives a result for all of them. Conjunctions and
disjunctions are monotone, so a substitution by trees that hold more easily holds more easily.

## Main definitions

* `Requirement.subst`, `Requirement.substM` : substitution at once and by computations.

## Main results

* `Requirement.mem_leaves_subst` : the leaves after a substitution.
* `Requirement.substM_bind_const` : the computations that a substitution runs.
* `Requirement.exists_subst_of_run_substM` : substitutions by computations that have a result.
* `Requirement.evaluate_subst_mono` : substitution is monotone.
-/

namespace SeedLogic.Requirement

/-! ### Substitution at once -/

mutual

/-- The tree with `f leaf` in place of every leaf. -/
def subst (f : String → Requirement) : Requirement → Requirement
  | .leaf text => f text
  | .all operands => .all (substList f operands)
  | .any operands => .any (substList f operands)

/-- The trees of a list with `f leaf` in place of every leaf. -/
def substList (f : String → Requirement) : List Requirement → List Requirement
  | [] => []
  | r :: rs => subst f r :: substList f rs

end

section Subst

variable {f g : String → Requirement} {connective : Connective}

private theorem substList_eq_map (rs : List Requirement) : substList f rs = rs.map (subst f) := by
  induction rs with
  | nil => rfl
  | cons r rs ih => rw [substList, ih, List.map_cons]

private theorem leavesList_eq_flatMap (rs : List Requirement) :
    leavesList rs = rs.flatMap leaves := by
  induction rs with
  | nil => rfl
  | cons r rs ih => rw [leavesList, ih, List.flatMap_cons]

@[simp]
theorem leaves_leaf (text : String) : (leaf text).leaves = [text] := by
  rw [leaves]

/-- The leaves of a node are those of its operands. -/
theorem leaves_join (operands : List Requirement) :
    (join connective operands).leaves = operands.flatMap leaves := by
  cases connective <;> rw [join, leaves, leavesList_eq_flatMap]

theorem mem_leaves_join {operands : List Requirement} {text : String} :
    text ∈ (join connective operands).leaves ↔ ∃ r ∈ operands, text ∈ r.leaves := by
  rw [leaves_join, List.mem_flatMap]

@[simp]
theorem subst_leaf (text : String) : (leaf text).subst f = f text := by
  rw [subst]

/-- A substitution replaces the leaves of each operand. -/
theorem subst_join (operands : List Requirement) :
    (join connective operands).subst f = join connective (operands.map (subst f)) := by
  cases connective <;> simp only [join, subst, substList_eq_map]

/-- Substitutions that agree on the leaves of a tree agree on the tree. -/
theorem subst_congr {r : Requirement} (h : ∀ text ∈ r.leaves, f text = g text) :
    r.subst f = r.subst g := by
  induction r using joinInduction with
  | leaf text => simpa using h text
  | node connective operands ih =>
    have hoperands : operands.map (subst f) = operands.map (subst g) :=
      List.map_congr_left fun r hr =>
        ih r hr fun text htext => h text (mem_leaves_join.2 ⟨r, hr, htext⟩)
    rw [subst_join, subst_join, hoperands]

/-- Substituting in two steps substitutes in the trees of the first step. -/
theorem subst_subst (r : Requirement) :
    (r.subst f).subst g = r.subst fun text => (f text).subst g := by
  induction r using joinInduction with
  | leaf text => simp
  | node connective operands ih =>
    have hoperands : (operands.map (subst f)).map (subst g) =
        operands.map (subst fun text => (f text).subst g) := by
      rw [List.map_map]
      exact List.map_congr_left ih
    rw [subst_join, subst_join, subst_join, hoperands]

/-- The leaves after a substitution are those of the trees that have been put in place. -/
theorem mem_leaves_subst {r : Requirement} {text : String} :
    text ∈ (r.subst f).leaves ↔ ∃ replaced ∈ r.leaves, text ∈ (f replaced).leaves := by
  induction r using joinInduction with
  | leaf replaced => simp
  | node connective operands ih =>
    rw [subst_join, mem_leaves_join]
    constructor
    · rintro ⟨_, hmem, htext⟩
      obtain ⟨r, hr, rfl⟩ := List.mem_map.1 hmem
      obtain ⟨replaced, hreplaced, htext⟩ := (ih r hr).1 htext
      exact ⟨replaced, mem_leaves_join.2 ⟨r, hr, hreplaced⟩, htext⟩
    · rintro ⟨replaced, hreplaced, htext⟩
      obtain ⟨r, hr, hreplaced⟩ := mem_leaves_join.1 hreplaced
      exact ⟨r.subst f, List.mem_map_of_mem hr, (ih r hr).2 ⟨replaced, hreplaced, htext⟩⟩

/-- A tree holds after a substitution if it holds after another one whose trees hold less
easily. -/
theorem evaluate_subst_mono {held : String → Bool} {r : Requirement}
    (h : ∀ text ∈ r.leaves, (f text).evaluate held = true → (g text).evaluate held = true) :
    (r.subst f).evaluate held = true → (r.subst g).evaluate held = true := by
  induction r using joinInduction with
  | leaf text => simpa using h text
  | node connective operands ih =>
    have hoperand (r : Requirement) (hr : r ∈ operands) :
        (r.subst f).evaluate held = true → (r.subst g).evaluate held = true :=
      ih r hr fun text htext => h text (mem_leaves_join.2 ⟨r, hr, htext⟩)
    rw [subst_join, subst_join]
    cases connective with
    | and =>
      simp only [join, evaluate_all, List.all_map, List.all_eq_true, Function.comp_apply]
      exact fun hall r hr => hoperand r hr (hall r hr)
    | or =>
      simp only [join, evaluate_any, List.any_map, List.any_eq_true, Function.comp_apply]
      rintro ⟨r, hr, hholds⟩
      exact ⟨r, hr, hoperand r hr hholds⟩

end Subst

/-! ### Substitution by computations -/

section SubstM

variable {m : Type → Type} [Monad m]

mutual

/-- The tree with the result of `expand leaf` in place of every leaf, computed from left to
right. -/
def substM (expand : String → m Requirement) : Requirement → m Requirement
  | .leaf text => expand text
  | .all operands => .all <$> substListM expand operands
  | .any operands => .any <$> substListM expand operands

/-- The trees of a list with the result of `expand leaf` in place of every leaf. -/
def substListM (expand : String → m Requirement) : List Requirement → m (List Requirement)
  | [] => pure []
  | r :: rs => do
    let t ← substM expand r
    let ts ← substListM expand rs
    pure (t :: ts)

end

variable {expand : String → m Requirement} {connective : Connective}

@[simp]
theorem substM_leaf (text : String) : (leaf text).substM expand = expand text := by
  rw [substM]

variable [LawfulMonad m]

private theorem substListM_eq_mapM (rs : List Requirement) :
    substListM expand rs = rs.mapM (substM expand) := by
  induction rs with
  | nil => rw [substListM, List.mapM_nil]
  | cons r rs ih => rw [substListM, ih, List.mapM_cons]

/-- A substitution replaces the leaves of one operand after the other. -/
theorem substM_join (operands : List Requirement) :
    (join connective operands).substM expand =
      join connective <$> operands.mapM (substM expand) := by
  cases connective <;> rw [join, substM, substListM_eq_mapM]

/-- Leaves that stand for themselves stay. -/
theorem substM_pure_leaf (r : Requirement) :
    r.substM (fun text => (pure (leaf text) : m Requirement)) = pure r := by
  induction r using joinInduction with
  | leaf text => simp
  | node connective operands ih =>
    have hoperands : operands.mapM (substM fun text => (pure (leaf text) : m Requirement)) =
        pure operands := by
      induction operands with
      | nil => rw [List.mapM_nil]
      | cons r rs ih' =>
        have hrest := ih' fun t ht => ih t (List.mem_cons_of_mem r ht)
        rw [List.mapM_cons, ih r List.mem_cons_self, hrest, pure_bind, pure_bind]
    rw [substM_join, hoperands, map_pure]

private theorem mapM_bind_const_of_forall {α : Type} {rs : List Requirement}
    (hrs : ∀ r ∈ rs, ∀ next : m α,
      (r.substM expand >>= fun _ => next) = (r.leaves.mapM expand >>= fun _ => next))
    (next : m α) :
    (rs.mapM (substM expand) >>= fun _ => next) =
      ((rs.flatMap leaves).mapM expand >>= fun _ => next) := by
  induction rs with
  | nil => rfl
  | cons r rs ih =>
    have hrest := ih fun t ht => hrs t (List.mem_cons_of_mem r ht)
    calc
      ((r :: rs).mapM (substM expand) >>= fun _ => next)
        = (r.substM expand >>= fun _ => rs.mapM (substM expand) >>= fun _ => next) := by
          simp only [List.mapM_cons, bind_assoc, pure_bind]
      _ = (r.leaves.mapM expand >>= fun _ =>
            (rs.flatMap leaves).mapM expand >>= fun _ => next) := by
          rw [hrs r List.mem_cons_self, hrest]
      _ = (((r :: rs).flatMap leaves).mapM expand >>= fun _ => next) := by
          simp only [List.flatMap_cons, List.mapM_append, bind_assoc, pure_bind]

/-- A substitution runs the computations for the leaves, from left to right and once each. -/
theorem substM_bind_const {α : Type} (r : Requirement) (next : m α) :
    (r.substM expand >>= fun _ => next) = (r.leaves.mapM expand >>= fun _ => next) := by
  induction r using joinInduction generalizing next with
  | leaf text =>
    simp only [substM_leaf, leaves_leaf, List.mapM_cons, List.mapM_nil, bind_assoc, pure_bind]
  | node connective operands ih =>
    rw [substM_join, leaves_join, bind_map_left]
    exact mapM_bind_const_of_forall ih next

/-- The substitutions in a list of trees run the computations for all leaves in their order. -/
theorem mapM_substM_bind_const {α : Type} (rs : List Requirement) (next : m α) :
    (rs.mapM (substM expand) >>= fun _ => next) =
      ((rs.flatMap leaves).mapM expand >>= fun _ => next) :=
  mapM_bind_const_of_forall (fun r _ next => substM_bind_const r next) next

end SubstM

/-! ### Computations that may fail or have no result -/

section Results

variable {ε α β : Type}

/-- A sequence has a result when both of its parts have one. -/
theorem exists_of_run_bind {x : ExceptT ε Option α} {next : α → ExceptT ε Option β} {b : β}
    (h : (x >>= next).run = some (.ok b)) :
    ∃ a, x.run = some (.ok a) ∧ (next a).run = some (.ok b) := by
  rw [ExceptT.run_bind] at h
  obtain ⟨result, hx, hnext⟩ := Option.bind_eq_some_iff.1 h
  cases result with
  | error e => exact absurd hnext (by simp)
  | ok a => exact ⟨a, hx, hnext⟩

/-- A computation that is lifted has its own result. -/
theorem run_lift (result : Except ε α) :
    (liftM result : ExceptT ε Option α).run = some result := by
  cases result <;> rfl

variable {expand : String → ExceptT ε Option Requirement}

/-- The result for a leaf, or the leaf itself when there is none. -/
private def resultFor (expand : String → ExceptT ε Option Requirement) (text : String) :
    Requirement :=
  match (expand text).run with
  | some (.ok r) => r
  | _ => .leaf text

private theorem run_eq_resultFor {text : String} {r : Requirement}
    (h : (expand text).run = some (.ok r)) :
    (expand text).run = some (.ok (resultFor expand text)) := by
  rw [resultFor, h]

private theorem eq_resultFor {text : String} {r : Requirement}
    (h : (expand text).run = some (.ok r)) : r = resultFor expand text := by
  rw [resultFor, h]

/-- What a computation substitutes for the leaves of a tree, when it has a result for the tree. -/
private def Substituted (expand : String → ExceptT ε Option Requirement) (r t : Requirement) :
    Prop :=
  (∀ text ∈ r.leaves, (expand text).run = some (.ok (resultFor expand text))) ∧
    t = r.subst (resultFor expand)

private theorem substituted_of_mapM {rs ts : List Requirement}
    (hrs : ∀ r ∈ rs, ∀ t, (r.substM expand).run = some (.ok t) → Substituted expand r t)
    (h : (rs.mapM (substM expand)).run = some (.ok ts)) :
    (∀ r ∈ rs, ∀ text ∈ r.leaves,
      (expand text).run = some (.ok (resultFor expand text))) ∧
      ts = rs.map (subst (resultFor expand)) := by
  induction rs generalizing ts with
  | nil =>
    rw [List.mapM_nil] at h
    obtain rfl : [] = ts := by simpa using h
    simp
  | cons r rs ih =>
    rw [List.mapM_cons] at h
    obtain ⟨t, ht, h⟩ := exists_of_run_bind h
    obtain ⟨rest, hrest, h⟩ := exists_of_run_bind h
    obtain rfl : t :: rest = ts := by simpa using h
    obtain ⟨hleaves, rfl⟩ := hrs r List.mem_cons_self t ht
    obtain ⟨hleaves', rfl⟩ := ih (fun r hr => hrs r (List.mem_cons_of_mem _ hr)) hrest
    exact ⟨List.forall_mem_cons.2 ⟨hleaves, hleaves'⟩, rfl⟩

private theorem substituted_of_run {r t : Requirement}
    (h : (r.substM expand).run = some (.ok t)) : Substituted expand r t := by
  induction r using joinInduction generalizing t with
  | leaf text =>
    rw [substM_leaf] at h
    refine ⟨fun other hother => ?_, ?_⟩
    · obtain rfl : other = text := by simpa using hother
      exact run_eq_resultFor h
    · rw [subst_leaf]
      exact eq_resultFor h
  | node connective operands ih =>
    rw [substM_join, ← bind_pure_comp] at h
    obtain ⟨ts, hts, h⟩ := exists_of_run_bind h
    obtain rfl : join connective ts = t := by simpa using h
    obtain ⟨hleaves, rfl⟩ := substituted_of_mapM (fun r hr t => ih r hr) hts
    refine ⟨fun text htext => ?_, ?_⟩
    · obtain ⟨r, hr, htext⟩ := mem_leaves_join.1 htext
      exact hleaves r hr text htext
    · rw [subst_join]

/-- A substitution by computations that has a result has one for every leaf and substitutes these
results at once. -/
theorem exists_subst_of_run_substM {r t : Requirement}
    (h : (r.substM expand).run = some (.ok t)) :
    ∃ f : String → Requirement,
      (∀ text ∈ r.leaves, (expand text).run = some (.ok (f text))) ∧ t = r.subst f :=
  ⟨resultFor expand, substituted_of_run h⟩

end Results

end SeedLogic.Requirement
