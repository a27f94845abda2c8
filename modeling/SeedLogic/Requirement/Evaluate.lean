import SeedLogic.Requirement.Basic

/-!
# Evaluation of requirement trees

A conjunction stops at the first operand that fails and a disjunction at the first that holds.
Terminals are decided without asking. The questions may be asked in any monad, so that the
order in which they are asked can be observed; `evaluate` asks a fixed predicate.
-/

namespace SeedLogic.Requirement

variable {m : Type → Type} [Monad m]

mutual

/-- Evaluates the tree from left to right, asking about a leaf only when it is reached. -/
def evaluateM (ask : String → m Bool) : Requirement → m Bool
  | .leaf text =>
    if text = nothingText then pure true
    else if text = impossibleText then pure false
    else ask text
  | .all operands => allM ask operands
  | .any operands => anyM ask operands

/-- Whether every operand holds. -/
def allM (ask : String → m Bool) : List Requirement → m Bool
  | [] => pure true
  | r :: rs => do
    if ← evaluateM ask r then allM ask rs else pure false

/-- Whether some operand holds. -/
def anyM (ask : String → m Bool) : List Requirement → m Bool
  | [] => pure false
  | r :: rs => do
    if ← evaluateM ask r then pure true else anyM ask rs

end

/-- Whether the requirement holds when the leaves that `held` accepts hold. -/
def evaluate (held : String → Bool) (r : Requirement) : Bool :=
  Id.run (r.evaluateM fun text => pure (held text))

/-- The truth value of a requirement and the leaves asked about, in order. -/
def evaluateAsking (held : String → Bool) (r : Requirement) : Bool × List String :=
  (r.evaluateM (m := StateM (List String)) fun text => do
    modify (· ++ [text])
    pure (held text)).run []

section Equations

variable (held : String → Bool)

/-- A terminal has its fixed value, and any other leaf the value that is held. -/
theorem evaluate_leaf (text : String) :
    evaluate held (.leaf text) =
      (text = nothingText || (text ≠ impossibleText && held text)) := by
  simp only [evaluate, evaluateM]
  by_cases h : text = nothingText
  · simp [h]
  · by_cases h' : text = impossibleText
    · subst h'
      simp [nothingText, impossibleText]
    · simp [h, h']

/-- A leaf that is no terminal has the value that is held. -/
theorem evaluate_leaf_of_isTerminal_eq_false {text : String} (h : isTerminal text = false) :
    evaluate held (.leaf text) = held text := by
  obtain ⟨hnothing, himpossible⟩ := Bool.or_eq_false_iff.1 h
  simp [evaluate_leaf, of_decide_eq_false hnothing, of_decide_eq_false himpossible]

/-- The terminal for what is satisfied holds. -/
theorem evaluate_nothing : evaluate held nothing = true := by
  simp [nothing, evaluate_leaf]

/-- The terminal for what cannot be satisfied does not hold. -/
theorem evaluate_impossible : evaluate held impossible = false := by
  simp [impossible, evaluate_leaf, nothingText, impossibleText]

private theorem run_allM (rs : List Requirement) :
    Id.run (allM (fun text => pure (held text)) rs) = rs.all (evaluate held) := by
  induction rs with
  | nil => rfl
  | cons r rs ih =>
    simp only [allM, List.all_cons, ← ih, Id.run_bind]
    simp only [evaluate]
    cases Id.run (r.evaluateM fun text => pure (held text)) <;> simp

private theorem run_anyM (rs : List Requirement) :
    Id.run (anyM (fun text => pure (held text)) rs) = rs.any (evaluate held) := by
  induction rs with
  | nil => rfl
  | cons r rs ih =>
    simp only [anyM, List.any_cons, ← ih, Id.run_bind]
    simp only [evaluate]
    cases Id.run (r.evaluateM fun text => pure (held text)) <;> simp

/-- A conjunction holds when all of its operands do. -/
theorem evaluate_all (rs : List Requirement) :
    evaluate held (.all rs) = rs.all (evaluate held) := by
  simp only [evaluate, evaluateM, run_allM]

/-- A disjunction holds when some operand does. -/
theorem evaluate_any (rs : List Requirement) :
    evaluate held (.any rs) = rs.any (evaluate held) := by
  simp only [evaluate, evaluateM, run_anyM]

end Equations

end SeedLogic.Requirement
