import SeedLogic.Requirement.Build

/-!
# Related ways of building a tree

Building a requirement text only sequences the expansions of its atoms. A relation between
computations that holds of immediate results and failures and is kept by sequencing therefore
holds of two builds of the same text as soon as it holds of the expansions of every atom. The
second computation may depend on an index, so that one build can be compared with a whole family.

Both connectives are read in the same way, so the tokens are told apart as connectives, parentheses
and atoms.

## Main definitions

* `Connective.token` : connectives as tokens.
* `Sequential` : relations between computations that sequencing keeps.

## Main results

* `Sequential.buildWith` : related expansions give related builds.
-/

namespace SeedLogic

open Requirement

/-! ### Connectives as tokens -/

/-- The token of a connective. -/
def Connective.token : Connective → Token
  | .and => .and
  | .or => .or

/-- A token is a connective, a parenthesis or an atom. -/
@[elab_as_elim]
theorem Token.connectiveCases {motive : Token → Prop}
    (connective : ∀ connective : Connective, motive connective.token) (opening : motive .opening)
    (closing : motive .closing) (atom : ∀ text, motive (.atom text)) : ∀ token, motive token
  | .and => connective .and
  | .or => connective .or
  | .opening => opening
  | .closing => closing
  | .atom text => atom text

/-! ### Related builds -/

variable {m n : Type → Type} [Monad m] [Monad n] {ι : Type}

/-- A connective is read unless the scope has another one. -/
theorem Requirement.readTokens_connective {requirement : String}
    {expand : String → ExceptT LogicError m Requirement} {scope : Scope} {outer : List Scope}
    {position : Nat} {rest : List PlacedToken} (connective : Connective) :
    readTokens requirement expand scope outer (⟨connective.token, position⟩ :: rest) =
      match scope.connect? connective with
      | some scope => readTokens requirement expand scope outer rest
      | none => throw (.mixedConnectives requirement position) := by
  cases connective <;> cases hconnect : scope.connect? _ <;>
    simp only [Connective.token, readTokens, hconnect]

/-- A relation between failing computations and families of them that holds of immediate results
and failures and is kept by sequencing. -/
structure Sequential
    (R : (α : Type) → ExceptT LogicError m α → (ι → ExceptT LogicError n α) → Prop) : Prop where
  pure {α : Type} (a : α) : R α (pure a) fun _ => pure a
  throw {α : Type} (e : LogicError) : R α (throw e) fun _ => throw e
  bind {α β : Type} {x : ExceptT LogicError m α} {y : ι → ExceptT LogicError n α}
    {f : α → ExceptT LogicError m β} {g : ι → α → ExceptT LogicError n β}
    (hxy : R α x y) (hfg : ∀ a, R β (f a) fun i => g i a) :
    R β (x >>= f) fun i => y i >>= g i

namespace Sequential

variable {R : (α : Type) → ExceptT LogicError m α → (ι → ExceptT LogicError n α) → Prop}
  (hR : Sequential R)

include hR

/-- A known result or failure is related to itself. -/
theorem lift {α : Type} (result : Except LogicError α) :
    R α (liftM result) fun _ => liftM result := by
  cases result with
  | error e => exact hR.throw e
  | ok a => exact hR.pure a

variable {expand : String → ExceptT LogicError m Requirement}
  {expand' : ι → String → ExceptT LogicError n Requirement}
  (hexpand : ∀ atom, R Requirement (expand atom) fun i => expand' i atom)

include hexpand

private theorem readTokens (requirement : String) (tokens : List PlacedToken) :
    ∀ (scope : Scope) (outer : List Scope),
      R Requirement (readTokens requirement expand scope outer tokens) fun i =>
        readTokens requirement (expand' i) scope outer tokens := by
  induction tokens with
  | nil =>
    intro scope outer
    cases outer with
    | nil => exact hR.pure scope.close
    | cons enclosing outer => exact hR.throw _
  | cons placed rest ih =>
    intro scope outer
    obtain ⟨token, position⟩ := placed
    cases token using Token.connectiveCases with
    | connective connective =>
      simp only [readTokens_connective]
      cases scope.connect? connective with
      | none => exact hR.throw _
      | some scope => exact ih scope outer
    | opening =>
      simp only [Requirement.readTokens]
      by_cases hoperand : scope.afterOperand = true
      · simp only [if_pos hoperand]
        exact hR.throw _
      · by_cases hnesting : maxNesting ≤ outer.length
        · simp only [if_neg hoperand, if_pos hnesting]
          exact hR.throw _
        · simp only [if_neg hoperand, if_neg hnesting]
          exact ih {} (scope :: outer)
    | closing =>
      cases outer with
      | nil => exact hR.throw _
      | cons enclosing outer => exact ih (enclosing.push scope.close) outer
    | atom text =>
      simp only [Requirement.readTokens]
      by_cases hoperand : scope.afterOperand = true
      · simp only [if_pos hoperand]
        exact hR.throw _
      · simp only [if_neg hoperand]
        exact hR.bind (hexpand text) fun operand => ih (scope.push operand) outer

/-- Builds of one requirement text are related when the expansions of its atoms are. -/
theorem buildWith (requirement : String) :
    R Requirement (buildWith expand requirement) fun i => buildWith (expand' i) requirement :=
  hR.readTokens hexpand requirement (Token.tokenize requirement) {} []

end Sequential

end SeedLogic
