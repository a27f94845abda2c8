import SeedLogic.Proofs.Requirement.Building
import SeedLogic.Requirement.Descent
import Mathlib.Tactic.Choose

/-!
# Recursive descent and the stack of open scopes

Reading a requirement text by recursive descent is reading it with a stack: the scopes on the stack
are those whose reading waits for the scope that is being read. The counter of open parentheses is
the height of the stack before and after the reading of every scope, so that both find the same
parenthesis too deep. What comes after a scope is read by the one that waits for it, hence the
comparison is made for every stack at once.

## Main definitions

* `Descent.Restores` : computations that do what another one does and set the counter back.
* `Descent.returnTo` : what happens once a scope has been read.
* `Descent.AgreesWithStack` : a scope is read alike with the stack.

## Main results

* `Descent.agreesWithStack` : every scope is, from every cursor on.
* `Requirement.descend_eq_buildWith` : recursive descent builds what the stack of scopes does.
-/

namespace SeedLogic

open Requirement

variable {m : Type → Type} [Monad m]

/-! ### Scopes as frames -/

namespace Scope

/-- A scope as recursive descent knows it. -/
def frame (scope : Scope) : Frame where
  operands := scope.operands.reverse
  connective := scope.connective.map Connective.token
  afterOperand := scope.afterOperand

theorem finish_frame (scope : Scope) : scope.frame.finish = scope.close := by
  obtain ⟨operands, connective, afterOperand⟩ := scope
  cases connective with
  | none => rfl
  | some connective => cases connective <;> rfl

theorem frame_push (scope : Scope) (operand : Requirement) :
    (scope.push operand).frame =
      { scope.frame with operands := scope.frame.operands ++ [operand], afterOperand := true } := by
  simp [frame, push]

/-- A connective is refused by both when the scope has another one. -/
theorem connect?_eq (scope : Scope) (connective : Connective) :
    scope.connect? connective =
      if scope.frame.connective.any (· ≠ connective.token) then none
      else some { scope with connective := some connective, afterOperand := false } := by
  obtain ⟨operands, seen, afterOperand⟩ := scope
  cases seen with
  | none => rfl
  | some seen => cases seen <;> cases connective <;> rfl

end Scope

namespace Descent

/-! ### Computations that set the counter back -/

section Restores

variable {α β : Type} {depth : Nat}

/-- A computation that starts with the counter at `depth` does what another one does that has no
counter, and the counter is at `depth` afterwards. -/
def Restores (depth : Nat) (plain : ExceptT LogicError m α) (counted : Descent m α) : Prop :=
  counted.run.run depth = (fun result => (result, depth)) <$> plain.run

namespace Restores

variable [LawfulMonad m]

theorem pure (a : α) : Restores depth (Pure.pure a : ExceptT LogicError m α) (Pure.pure a) := by
  simp [Restores]

theorem throw (e : LogicError) :
    Restores depth (MonadExcept.throw e : ExceptT LogicError m α) (MonadExcept.throw e) := by
  simp [Restores]

theorem ofPlain (plain : ExceptT LogicError m α) : Restores depth plain (ofPlain plain) := by
  simp [Restores, Descent.ofPlain]

theorem toPlain_eq {plain : ExceptT LogicError m α} {counted : Descent m α}
    (h : Restores 0 plain counted) : counted.toPlain = plain := by
  rw [Restores] at h
  exact ExceptT.ext (by simp [toPlain, StateT.run'_eq, h])

theorem bind {plain : ExceptT LogicError m α} {counted : Descent m α}
    {next : α → ExceptT LogicError m β} {next' : α → Descent m β}
    (h : Restores depth plain counted) (hnext : ∀ a, Restores depth (next a) (next' a)) :
    Restores depth (plain >>= next) (counted >>= next') := by
  rw [Restores, ExceptT.run_bind, StateT.run_bind, h, bind_map_left, ExceptT.run_bind, map_bind]
  refine congrArg _ (funext fun result => ?_)
  cases result with
  | ok a => exact hnext a
  | error e => simp

private theorem run_withNesting (requirement : String) (counted : Descent m α) (depth : Nat) :
    (withNesting requirement counted).run.run depth =
      if maxNesting < depth + 1 then
        Pure.pure (.error (.nestingTooDeep requirement maxNesting), depth)
      else (fun result => (result.1, result.2 - 1)) <$> counted.run.run (depth + 1) := by
  rw [Descent.withNesting, ExceptT.run_mk, StateT.run_bind, StateT.run_get, pure_bind]
  by_cases hdeep : maxNesting < depth + 1
  · rw [if_pos hdeep, if_pos hdeep, StateT.run_pure]
  · rw [if_neg hdeep, if_neg hdeep]
    simp only [bind_pure_comp, StateT.run_bind, StateT.run_set, StateT.run_map,
      StateT.run_modify, map_pure, pure_bind]

/-- A step that goes one level deeper sets the counter back whatever comes of it. -/
theorem withNesting {plain : ExceptT LogicError m α} {counted : Descent m α}
    (requirement : String) (hdepth : depth < maxNesting) (h : Restores (depth + 1) plain counted) :
    Restores depth plain (withNesting requirement counted) := by
  rw [Restores, run_withNesting, if_neg (Nat.not_lt.2 hdepth), h, Functor.map_map]
  rfl

/-- At the limit a step is refused, and the counter stays. -/
theorem withNesting_of_le {counted : Descent m α} (requirement : String)
    (hdepth : maxNesting ≤ depth) :
    Restores depth (MonadExcept.throw (.nestingTooDeep requirement maxNesting))
      (Descent.withNesting requirement counted) := by
  rw [Restores, run_withNesting, if_pos (Nat.lt_succ_of_le hdepth), ExceptT.run_throw, map_pure]

end Restores

end Restores

/-! ### Reading a scope -/

/-- What happens once a scope has been read: the scope that waits for it reads the tokens behind
it, and the text has been read when none waits. -/
def returnTo (requirement : String) (tokens : Array PlacedToken)
    (expand : String → ExceptT LogicError m Requirement) (outer : List Scope) (tree : Requirement)
    (index : Nat) : ExceptT LogicError m Requirement :=
  match outer with
  | [] => pure tree
  | enclosing :: outer =>
    readTokens requirement expand (enclosing.push tree) outer (tokens.toList.drop index)

/-- From the cursor on, recursive descent reads a scope and sets the counter back. With a stack of
that height the same is read, and then the scopes on the stack go on. -/
def AgreesWithStack (requirement : String) (tokens : Array PlacedToken)
    (expand : String → ExceptT LogicError m Requirement) (nested : Bool) (depth : Nat)
    (scope : Scope) {start : Nat} (cursor : Cursor start) : Prop :=
  ∃ plain : ExceptT LogicError m (Requirement × Cursor start),
    Restores depth plain (readScope requirement tokens expand nested scope.frame cursor) ∧
      ∀ outer : List Scope, outer.length = depth → nested = !outer.isEmpty →
        readTokens requirement expand scope outer (tokens.toList.drop cursor.index) =
          plain >>= fun (tree, later) =>
            returnTo requirement tokens expand outer tree later.index

section Reading

variable [LawfulMonad m] {requirement : String} {tokens : Array PlacedToken}
  {expand : String → ExceptT LogicError m Requirement} {nested : Bool} {start depth : Nat}
  {scope : Scope} {cursor : Cursor start} {position : Nat}

private theorem throw_bind {α β : Type} (e : LogicError) (next : α → ExceptT LogicError m β) :
    (throw e : ExceptT LogicError m α) >>= next = throw e :=
  ExceptT.ext (by simp)

/-- Both fail in the same way. -/
private theorem agrees_of_throw {e : LogicError}
    (hread : readScope requirement tokens expand nested scope.frame cursor = throw e)
    (hstack : ∀ outer : List Scope, outer.length = depth → nested = !outer.isEmpty →
      readTokens requirement expand scope outer (tokens.toList.drop cursor.index) = throw e) :
    AgreesWithStack requirement tokens expand nested depth scope cursor := by
  refine ⟨throw e, hread ▸ .throw e, fun outer hdepth hnested => ?_⟩
  rw [hstack outer hdepth hnested, throw_bind]

private theorem expectConnective_bind {α : Type} (afterOperand : Bool)
    (next : Unit → Descent m α) :
    expectConnective requirement afterOperand position >>= next =
      if afterOperand then throw (.missingConnective requirement position) else next () := by
  cases afterOperand with
  | true => exact throw_bind _ next
  | false => exact pure_bind () next

/-- A scope in parentheses is read alike, unless it is too deep for both. -/
private theorem exists_withNesting
    (hchild : AgreesWithStack requirement tokens expand true (depth + 1) {} cursor) :
    ∃ inner : ExceptT LogicError m (Requirement × Cursor start),
      Restores depth inner
        (withNesting requirement (readScope requirement tokens expand true {} cursor)) ∧
        ∀ (scope : Scope) (outer : List Scope), outer.length = depth →
          (if maxNesting ≤ outer.length then throw (.nestingTooDeep requirement maxNesting)
            else readTokens requirement expand {} (scope :: outer)
              (tokens.toList.drop cursor.index)) =
            inner >>= fun (tree, later) =>
              readTokens requirement expand (scope.push tree) outer
                (tokens.toList.drop later.index) := by
  obtain ⟨inner, hinner, hstack⟩ := hchild
  -- Both count the parentheses that are open, one by its counter, one by the height of the stack.
  by_cases hdeep : maxNesting ≤ depth
  · refine ⟨_, .withNesting_of_le requirement hdeep, fun scope outer hdepth => ?_⟩
    rw [hdepth, if_pos hdeep, throw_bind]
  · refine ⟨inner, hinner.withNesting requirement (Nat.not_le.1 hdeep),
      fun scope outer hdepth => ?_⟩
    rw [hdepth, if_neg hdeep]
    exact hstack (scope :: outer) (by rw [List.length_cons, hdepth]) rfl

private theorem agrees_at_end (hend : tokens.size ≤ cursor.index) :
    AgreesWithStack requirement tokens expand nested depth scope cursor := by
  have hread := readScope.eq_def requirement tokens expand nested scope.frame cursor
  rw [dif_neg (Nat.not_lt.2 hend)] at hread
  have hdrop : tokens.toList.drop cursor.index = [] := List.drop_eq_nil_of_le hend
  cases nested with
  | true =>
    refine agrees_of_throw hread fun outer _ hnested => ?_
    rw [hdrop]
    cases outer with
    | nil => cases hnested
    | cons enclosing outer => rfl
  | false =>
    refine ⟨pure (scope.close, cursor), ?_, fun outer _ hnested => ?_⟩
    · rw [hread, if_neg Bool.false_ne_true, Scope.finish_frame]
      exact .pure _
    · obtain rfl : outer = [] := by simpa using hnested
      rw [hdrop, pure_bind]
      rfl

variable (h : cursor.index < tokens.size)

include h

private theorem drop_eq_cons :
    tokens.toList.drop cursor.index =
      tokens[cursor.index] :: tokens.toList.drop cursor.next.index :=
  List.drop_eq_getElem_cons h

private theorem agrees_at_connective {connective : Connective}
    (htoken : tokens[cursor.index] = ⟨connective.token, position⟩)
    (hnext : ∀ scope, AgreesWithStack requirement tokens expand nested depth scope cursor.next) :
    AgreesWithStack requirement tokens expand nested depth scope cursor := by
  have hread : readScope requirement tokens expand nested scope.frame cursor =
      if scope.frame.connective.any (· ≠ connective.token) then
        throw (.mixedConnectives requirement position)
      else
        readScope requirement tokens expand nested
          { scope.frame with connective := some connective.token, afterOperand := false }
          cursor.next := by
    rw [readScope, dif_pos h, htoken]
    cases connective <;> rfl
  by_cases hmixed : scope.frame.connective.any (· ≠ connective.token) = true
  · refine agrees_of_throw (hread.trans (if_pos hmixed)) fun outer _ _ => ?_
    rw [drop_eq_cons h, htoken, readTokens_connective, Scope.connect?_eq, if_pos hmixed]
  · obtain ⟨plain, hplain, hfollows⟩ := hnext
      { scope with connective := some connective, afterOperand := false }
    refine ⟨plain, ?_, fun outer hdepth hnested => ?_⟩
    · rw [hread, if_neg hmixed]
      exact hplain
    · rw [drop_eq_cons h, htoken, readTokens_connective, Scope.connect?_eq, if_neg hmixed]
      exact hfollows outer hdepth hnested

private theorem agrees_at_closing (htoken : tokens[cursor.index] = ⟨.closing, position⟩) :
    AgreesWithStack requirement tokens expand nested depth scope cursor := by
  have hread : readScope requirement tokens expand nested scope.frame cursor =
      if nested then pure (scope.close, cursor.next)
      else throw (.unbalancedParentheses requirement position) := by
    rw [readScope, dif_pos h, htoken, ← Scope.finish_frame]
  cases nested with
  | true =>
    refine ⟨pure (scope.close, cursor.next), hread ▸ .pure _, fun outer _ hnested => ?_⟩
    rw [drop_eq_cons h, htoken, pure_bind]
    cases outer with
    | nil => cases hnested
    | cons enclosing outer => rfl
  | false =>
    refine agrees_of_throw hread fun outer _ hnested => ?_
    obtain rfl : outer = [] := by simpa using hnested
    rw [drop_eq_cons h, htoken]
    rfl

private theorem agrees_at_atom {text : String}
    (htoken : tokens[cursor.index] = ⟨.atom text, position⟩)
    (hnext : ∀ scope, AgreesWithStack requirement tokens expand nested depth scope cursor.next) :
    AgreesWithStack requirement tokens expand nested depth scope cursor := by
  have hread : readScope requirement tokens expand nested scope.frame cursor =
      if scope.afterOperand then throw (.missingConnective requirement position)
      else (do
        let operand ← ofPlain (expand text)
        readScope requirement tokens expand nested (scope.push operand).frame cursor.next) := by
    rw [readScope, dif_pos h, htoken]
    simp only [Scope.frame_push]
    exact expectConnective_bind scope.afterOperand _
  by_cases hafter : scope.afterOperand = true
  · refine agrees_of_throw (hread.trans (if_pos hafter)) fun outer _ _ => ?_
    rw [drop_eq_cons h, htoken, readTokens, if_pos hafter]
  · choose plain hplain hfollows using fun operand => hnext (scope.push operand)
    refine ⟨expand text >>= plain, ?_, fun outer hdepth hnested => ?_⟩
    · rw [hread, if_neg hafter]
      exact (Restores.ofPlain _).bind hplain
    · rw [drop_eq_cons h, htoken, readTokens, if_neg hafter, bind_assoc]
      exact congrArg _ (funext fun operand => hfollows operand outer hdepth hnested)

private theorem agrees_at_opening (htoken : tokens[cursor.index] = ⟨.opening, position⟩)
    (hchild : AgreesWithStack requirement tokens expand true (depth + 1) {} cursor.next.here)
    (hnext : ∀ scope (later : Cursor cursor.next.index),
      AgreesWithStack requirement tokens expand nested depth scope (cursor.next.moved later)) :
    AgreesWithStack requirement tokens expand nested depth scope cursor := by
  have hread : readScope requirement tokens expand nested scope.frame cursor =
      if scope.afterOperand then throw (.missingConnective requirement position)
      else (do
        let result ← withNesting requirement
          (readScope requirement tokens expand true {} cursor.next.here)
        readScope requirement tokens expand nested (scope.push result.1).frame
          (cursor.next.moved result.2)) := by
    rw [readScope, dif_pos h, htoken]
    simp only [Scope.frame_push]
    exact expectConnective_bind scope.afterOperand _
  by_cases hafter : scope.afterOperand = true
  · refine agrees_of_throw (hread.trans (if_pos hafter)) fun outer _ _ => ?_
    rw [drop_eq_cons h, htoken, readTokens, if_pos hafter]
  · -- The scope inside ends at any later cursor, and what follows it is chosen for each of them.
    obtain ⟨inner, hinner, hstack⟩ := exists_withNesting hchild
    choose plain hplain hfollows using fun tree : Requirement => hnext (scope.push tree)
    refine ⟨inner >>= fun result => plain result.1 result.2, ?_, fun outer hdepth hnested => ?_⟩
    · rw [hread, if_neg hafter]
      exact hinner.bind fun result => hplain result.1 result.2
    · rw [drop_eq_cons h, htoken, readTokens, if_neg hafter, bind_assoc]
      refine (hstack scope outer hdepth).trans (congrArg _ (funext fun result => ?_))
      exact hfollows result.1 result.2 outer hdepth hnested

omit h in
variable (requirement tokens expand) in
/-- Every scope is read alike from every cursor on. -/
theorem agreesWithStack (nested : Bool) (depth : Nat) (scope : Scope) (cursor : Cursor start) :
    AgreesWithStack requirement tokens expand nested depth scope cursor := by
  -- The scopes inside a scope begin behind its cursor, so the induction is on the tokens left.
  induction hleft : tokens.size - cursor.index using Nat.strongRecOn
    generalizing start nested depth scope cursor with
  | ind left ih =>
  subst hleft
  by_cases h : cursor.index < tokens.size
  · have hnext : tokens.size - cursor.next.index < tokens.size - cursor.index :=
      Nat.sub_lt_sub_left h (Nat.lt_succ_self _)
    obtain ⟨⟨token, position⟩, htoken⟩ : ∃ placed, tokens[cursor.index] = placed := ⟨_, rfl⟩
    cases token using Token.connectiveCases with
    | connective connective =>
      exact agrees_at_connective h htoken fun scope => ih _ hnext nested depth scope _ rfl
    | opening =>
      refine agrees_at_opening h htoken (ih _ hnext true (depth + 1) {} _ rfl)
        fun scope later => ih _ ?_ nested depth scope _ rfl
      exact Nat.sub_lt_sub_left h later.start_le
    | closing => exact agrees_at_closing h htoken
    | atom text => exact agrees_at_atom h htoken fun scope => ih _ hnext nested depth scope _ rfl
  · exact agrees_at_end (Nat.le_of_not_lt h)

end Reading

end Descent

/-- Recursive descent gives what reading the tokens with a stack of open scopes gives: the same tree
or the same error, after the same expansions in the same order. -/
theorem Requirement.descend_eq_buildWith [LawfulMonad m]
    (expand : String → ExceptT LogicError m Requirement) (requirement : String) :
    descend expand requirement = buildWith expand requirement := by
  obtain ⟨plain, hplain, hstack⟩ := Descent.agreesWithStack requirement
    (Token.tokenize requirement).toArray expand false 0 {} Cursor.first
  have hread : (Descent.readScope requirement (Token.tokenize requirement).toArray expand false {}
      Cursor.first).toPlain = plain := hplain.toPlain_eq
  rw [descend, hread]
  exact (hstack [] rfl rfl).symm

end SeedLogic
