import SeedLogic.Proofs.Requirement.Building

/-!
# Texts inside texts

Reading a text from left to right is a fold over its tokens. What a token does to the innermost
scope does not depend on the scopes around it, except that parentheses may not nest too deep. So
the tokens of a text that can be built do in parentheses what they do on their own: they leave a
finished scope with the tree of the text.

Two readings are compared by a relation between computations that does not care how the first one
fails, and accepts that the second one runs into the limit on parentheses.

## Main definitions

* `Requirement.readToken` : what one token does to the open scopes.
* `Lenient` : sequential relations with an excuse.

## Main results

* `Requirement.readTokens_eq_foldlM` : reading is a fold over the tokens.
* `Lenient.foldlM_readToken` : the same tokens with scopes around them.
* `Lenient.enclosed` : the tokens of a text in parentheses.
* `Lenient.buildWith_replace` : builds of two texts that differ in one place.
-/

namespace SeedLogic

open Requirement

/-! ### Reading as a fold -/

namespace Requirement

variable {m : Type → Type} [Monad m] (requirement : String)
  (expand : String → ExceptT LogicError m Requirement)

/-- Reads a connective, given the innermost scope and the scopes around it. -/
def readConnective (connective : Connective) (position : Nat) (scope : Scope)
    (outer : List Scope) : ExceptT LogicError m (Scope × List Scope) :=
  match scope.connect? connective with
  | some scope => pure (scope, outer)
  | none => throw (.mixedConnectives requirement position)

/-- Reads one token, given the innermost scope and the scopes around it. -/
def readToken : Scope × List Scope → PlacedToken → ExceptT LogicError m (Scope × List Scope)
  | (scope, outer), ⟨.and, position⟩ => readConnective requirement .and position scope outer
  | (scope, outer), ⟨.or, position⟩ => readConnective requirement .or position scope outer
  | (scope, outer), ⟨.opening, position⟩ =>
    if scope.afterOperand then throw (.missingConnective requirement position)
    else if maxNesting ≤ outer.length then throw (.nestingTooDeep requirement maxNesting)
    else pure ({}, scope :: outer)
  | (scope, outer), ⟨.closing, position⟩ =>
    match outer with
    | [] => throw (.unbalancedParentheses requirement position)
    | enclosing :: outer => pure (enclosing.push scope.close, outer)
  | (scope, outer), ⟨.atom text, position⟩ =>
    if scope.afterOperand then throw (.missingConnective requirement position)
    else do
      let operand ← expand text
      pure (scope.push operand, outer)

/-- Finishes a text after its last token. -/
def finishReading : Scope × List Scope → ExceptT LogicError m Requirement
  | (scope, []) => pure scope.close
  | (_, _ :: _) => throw (.unbalancedParentheses requirement requirement.utf8ByteSize)

/-- Both connectives are read in the same way. -/
theorem readToken_connective (connective : Connective) (position : Nat) (scope : Scope)
    (outer : List Scope) :
    readToken requirement expand (scope, outer) ⟨connective.token, position⟩ =
      readConnective requirement connective position scope outer := by
  cases connective <;> rfl

theorem readConnective_bind [LawfulMonad m] {β : Type} (connective : Connective) (position : Nat)
    (scope : Scope) (outer : List Scope) (f : Scope × List Scope → ExceptT LogicError m β) :
    (readConnective requirement connective position scope outer >>= f) =
      match scope.connect? connective with
      | some scope => f (scope, outer)
      | none => throw (.mixedConnectives requirement position) := by
  rw [readConnective]
  cases scope.connect? connective with
  | none => exact ExceptT.bind_throw f
  | some scope => exact pure_bind _ f

/-- Reading goes from token to token. -/
theorem readTokens_eq_foldlM [LawfulMonad m] (tokens : List PlacedToken) (scope : Scope)
    (outer : List Scope) :
    readTokens requirement expand scope outer tokens =
      tokens.foldlM (readToken requirement expand) (scope, outer) >>=
        finishReading requirement := by
  induction tokens generalizing scope outer with
  | nil =>
    rw [List.foldlM_nil, pure_bind]
    cases outer <;> rfl
  | cons placed rest ih =>
    obtain ⟨token, position⟩ := placed
    rw [List.foldlM_cons, bind_assoc]
    cases token using Token.connectiveCases with
    | connective connective =>
      rw [readTokens_connective, readToken_connective, readConnective_bind]
      cases scope.connect? connective with
      | none => rfl
      | some scope => exact ih scope outer
    | opening =>
      simp only [readTokens, readToken]
      split
      · exact (ExceptT.bind_throw _).symm
      · split
        · exact (ExceptT.bind_throw _).symm
        · rw [pure_bind]
          exact ih {} (scope :: outer)
    | closing =>
      cases outer with
      | nil => exact (ExceptT.bind_throw _).symm
      | cons enclosing outer =>
        simp only [readTokens, readToken, pure_bind]
        exact ih (enclosing.push scope.close) outer
    | atom text =>
      simp only [readTokens, readToken]
      split
      · exact (ExceptT.bind_throw _).symm
      · simp only [bind_assoc, pure_bind]
        exact congrArg _ (funext fun operand => ih (scope.push operand) outer)

end Requirement

/-! ### Lenient relations -/

variable {m n : Type → Type} [Monad m] [Monad n] {ι : Type}

/-- A sequential relation that holds if the first computation fails, and if the second one fails
with the given error. -/
structure Lenient (excuse : LogicError)
    (R : (α : Type) → ExceptT LogicError m α → (ι → ExceptT LogicError n α) → Prop) : Prop
    extends Sequential R where
  failed {α : Type} (e : LogicError) (y : ι → ExceptT LogicError n α) :
    R α (MonadExcept.throw e) y
  excused {α : Type} (x : ExceptT LogicError m α) : R α x fun _ => MonadExcept.throw excuse

namespace Lenient

variable [LawfulMonad m] [LawfulMonad n] {requirement requirement' : String}
  {R : (α : Type) → ExceptT LogicError m α → (ι → ExceptT LogicError n α) → Prop}
  (hR : Lenient (.nestingTooDeep requirement' maxNesting) R)
  {expand : String → ExceptT LogicError m Requirement}
  {expand' : ι → String → ExceptT LogicError n Requirement}
  (hexpand : ∀ atom, R Requirement (expand atom) fun i => expand' i atom)

include hR

section Steps

variable {β : Type} {f : Scope × List Scope → ExceptT LogicError m β}
  {g : ι → Scope × List Scope → ExceptT LogicError n β} {enclosing : List Scope}

omit [LawfulMonad n] in
private theorem failed_bind {α : Type} (e : LogicError) (f : α → ExceptT LogicError m β)
    (y : ι → ExceptT LogicError n β) : R β (throw e >>= f) y := by
  rw [ExceptT.bind_throw]
  exact hR.failed e y

/-- A connective does the same with scopes around those that are open. -/
private theorem readConnective_bind
    (hfg : ∀ scope outer, R β (f (scope, outer)) fun i => g i (scope, outer ++ enclosing))
    (connective : Connective) (position position' : Nat) (scope : Scope) (outer : List Scope) :
    R β (readConnective requirement connective position scope outer >>= f) fun i =>
      readConnective requirement' connective position' scope (outer ++ enclosing) >>= g i := by
  simp only [Requirement.readConnective_bind]
  cases scope.connect? connective with
  | none => exact hR.failed _ _
  | some scope => exact hfg scope outer

include hexpand

/-- A token does the same with scopes around those that are open. -/
theorem readToken_bind
    (hfg : ∀ scope outer, R β (f (scope, outer)) fun i => g i (scope, outer ++ enclosing))
    {placed placed' : PlacedToken} (h : placed.token = placed'.token) (scope : Scope)
    (outer : List Scope) :
    R β (readToken requirement expand (scope, outer) placed >>= f) fun i =>
      readToken requirement' (expand' i) (scope, outer ++ enclosing) placed' >>= g i := by
  obtain ⟨token, position⟩ := placed
  obtain ⟨token', position'⟩ := placed'
  obtain rfl : token = token' := h
  -- Only an opening parenthesis looks at the scopes around, to see how deep it would nest.
  cases token using Token.connectiveCases with
  | connective connective =>
    simp only [readToken_connective]
    exact hR.readConnective_bind hfg connective _ _ scope outer
  | opening =>
    simp only [readToken]
    by_cases hoperand : scope.afterOperand = true
    · simp only [if_pos hoperand]
      exact hR.failed_bind _ _ _
    · simp only [if_neg hoperand]
      by_cases hnesting : maxNesting ≤ outer.length
      · simp only [if_pos hnesting]
        exact hR.failed_bind _ _ _
      · by_cases hnesting' : maxNesting ≤ (outer ++ enclosing).length
        · simp only [if_pos hnesting', ExceptT.bind_throw]
          exact hR.excused _
        · simp only [if_neg hnesting, if_neg hnesting', pure_bind]
          exact hfg {} (scope :: outer)
  | closing =>
    cases outer with
    | nil => exact hR.failed_bind _ _ _
    | cons around outer =>
      simp only [readToken, List.cons_append, pure_bind]
      exact hfg (around.push scope.close) outer
  | atom text =>
    simp only [readToken]
    by_cases hoperand : scope.afterOperand = true
    · simp only [if_pos hoperand]
      exact hR.failed_bind _ _ _
    · simp only [if_neg hoperand, bind_assoc, pure_bind]
      exact hR.bind (hexpand text) fun operand => hfg (scope.push operand) outer

/-- The same tokens do the same with scopes around those that are open. -/
theorem foldlM_readToken
    (hfg : ∀ scope outer, R β (f (scope, outer)) fun i => g i (scope, outer ++ enclosing))
    {tokens tokens' : List PlacedToken}
    (h : tokens.map PlacedToken.token = tokens'.map PlacedToken.token) (scope : Scope)
    (outer : List Scope) :
    R β (tokens.foldlM (readToken requirement expand) (scope, outer) >>= f) fun i =>
      tokens'.foldlM (readToken requirement' (expand' i)) (scope, outer ++ enclosing) >>= g i := by
  induction tokens generalizing tokens' scope outer with
  | nil =>
    obtain rfl : tokens' = [] := List.map_eq_nil_iff.1 h.symm
    simp only [List.foldlM_nil, pure_bind]
    exact hfg scope outer
  | cons placed rest ih =>
    obtain ⟨placed', rest', rfl, hplaced, hrest⟩ := List.map_eq_cons_iff.1 h.symm
    simp only [List.foldlM_cons, bind_assoc]
    exact hR.readToken_bind hexpand (ih hrest.symm) hplaced.symm scope outer

/-- The same tokens do the same. -/
theorem foldlM_alike (hfg : ∀ scope outer, R β (f (scope, outer)) fun i => g i (scope, outer))
    {tokens tokens' : List PlacedToken}
    (h : tokens.map PlacedToken.token = tokens'.map PlacedToken.token) (scope : Scope)
    (outer : List Scope) :
    R β (tokens.foldlM (readToken requirement expand) (scope, outer) >>= f) fun i =>
      tokens'.foldlM (readToken requirement' (expand' i)) (scope, outer) >>= g i := by
  have hnone (scope : Scope) (outer : List Scope) :
      R β (f (scope, outer)) fun i => g i (scope, outer ++ []) := by
    rw [List.append_nil]
    exact hfg scope outer
  simpa only [List.append_nil] using hR.foldlM_readToken hexpand hnone h scope outer

end Steps

include hexpand

/-- The tokens of a text do in parentheses what the tree of the text does as an operand. -/
theorem enclosed {β : Type} {scope : Scope} {outer : List Scope}
    (hscope : scope.afterOperand = false) {f : Requirement → ExceptT LogicError m β}
    {g : ι → Scope × List Scope → ExceptT LogicError n β}
    (hfg : ∀ operand, R β (f operand) fun i => g i (scope.push operand, outer))
    {tokens : List PlacedToken}
    (h : (Token.tokenize requirement).map PlacedToken.token = tokens.map PlacedToken.token)
    (start stop : Nat) :
    R β (buildWith expand requirement >>= f) fun i =>
      (PlacedToken.mk .opening start :: tokens ++ [PlacedToken.mk .closing stop]).foldlM
        (readToken requirement' (expand' i)) (scope, outer) >>= g i := by
  have hopen : ¬scope.afterOperand = true := Bool.eq_false_iff.1 hscope
  simp only [buildWith, readTokens_eq_foldlM, List.cons_append, List.foldlM_cons,
    List.foldlM_append, bind_assoc]
  by_cases hnesting : maxNesting ≤ outer.length
  · simp only [readToken, if_neg hopen, if_pos hnesting, ExceptT.bind_throw]
    exact hR.excused _
  · simp only [readToken, if_neg hopen, if_neg hnesting, pure_bind, List.foldlM_nil]
    refine hR.foldlM_readToken hexpand (fun inner between => ?_) h {} []
    cases between with
    | nil =>
      simp only [finishReading, List.nil_append, pure_bind]
      exact hfg inner.close
    | cons => exact hR.failed_bind _ _ _

/-- Builds of two texts are related if the texts differ in one place only, where a token of the
first text does what some tokens of the second one do. -/
theorem buildWith_replace {before before' after after' tokens : List PlacedToken}
    {placed : PlacedToken} (hrequirement : Token.tokenize requirement = before ++ placed :: after)
    (hrequirement' : Token.tokenize requirement' = before' ++ (tokens ++ after'))
    (hbefore : before.map PlacedToken.token = before'.map PlacedToken.token)
    (hafter : after.map PlacedToken.token = after'.map PlacedToken.token)
    (hplaced : ∀ scope outer, R _ (readToken requirement expand (scope, outer) placed) fun i =>
      tokens.foldlM (readToken requirement' (expand' i)) (scope, outer)) :
    R Requirement (buildWith expand requirement) fun i => buildWith (expand' i) requirement' := by
  simp only [buildWith, readTokens_eq_foldlM, hrequirement, hrequirement', List.foldlM_append,
    List.foldlM_cons, bind_assoc]
  refine hR.foldlM_alike hexpand (fun scope outer => ?_) hbefore {} []
  refine hR.bind (hplaced scope outer) fun reading => ?_
  refine hR.foldlM_alike hexpand (fun scope outer => ?_) hafter reading.1 reading.2
  cases outer with
  | nil => exact hR.pure scope.close
  | cons => exact hR.failed _ _

end Lenient

end SeedLogic
