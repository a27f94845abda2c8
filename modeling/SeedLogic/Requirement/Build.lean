import SeedLogic.Requirement.Basic
import SeedLogic.Requirement.Token
import SeedLogic.LogicError

/-!
# Building a tree from a requirement text

The tokens are read from left to right with a stack of open scopes. Each scope joins its operands
by the one connective that occurs in it. Reading stops at the first token that does not fit, and
every atom before it has been expanded, in order and once.
-/

namespace SeedLogic

/-- A parenthesis scope while it is being read. -/
structure Scope where
  /-- The operands read so far, latest first. -/
  operands : List Requirement := []
  /-- The connective of the scope, once one has been read. -/
  connective : Option Connective := none
  /-- Whether the last thing read in the scope is an operand. -/
  afterOperand : Bool := false

namespace Scope

/-- The tree of a finished scope. Without a connective it is a conjunction. -/
def close (scope : Scope) : Requirement :=
  .join (scope.connective.getD .and) scope.operands.reverse

/-- The scope after an operand. -/
def push (scope : Scope) (operand : Requirement) : Scope :=
  { scope with operands := operand :: scope.operands, afterOperand := true }

/-- The scope after a connective, unless it differs from an earlier one. -/
def connect? (scope : Scope) (connective : Connective) : Option Scope :=
  match scope.connective with
  | none => some { scope with connective := some connective, afterOperand := false }
  | some seen => if seen = connective then some { scope with afterOperand := false } else none

end Scope

namespace Requirement

/-- The greatest number of nested parentheses in one requirement text. -/
def maxNesting : Nat := 32

variable {m : Type → Type} [Monad m]

/-- Reads the tokens of `requirement` into the innermost scope; `outer` holds the scopes around
it, innermost first. -/
def readTokens (requirement : String) (expand : String → ExceptT LogicError m Requirement) :
    Scope → List Scope → List PlacedToken → ExceptT LogicError m Requirement
  | scope, [], [] => pure scope.close
  | _, _ :: _, [] => throw (.unbalancedParentheses requirement requirement.utf8ByteSize)
  | scope, outer, ⟨.and, position⟩ :: rest =>
    match scope.connect? .and with
    | some scope => readTokens requirement expand scope outer rest
    | none => throw (.mixedConnectives requirement position)
  | scope, outer, ⟨.or, position⟩ :: rest =>
    match scope.connect? .or with
    | some scope => readTokens requirement expand scope outer rest
    | none => throw (.mixedConnectives requirement position)
  | scope, outer, ⟨.opening, position⟩ :: rest =>
    if scope.afterOperand then throw (.missingConnective requirement position)
    else if maxNesting ≤ outer.length then throw (.nestingTooDeep requirement maxNesting)
    else readTokens requirement expand {} (scope :: outer) rest
  | scope, outer, ⟨.closing, position⟩ :: rest =>
    match outer with
    | [] => throw (.unbalancedParentheses requirement position)
    | enclosing :: outer => readTokens requirement expand (enclosing.push scope.close) outer rest
  | scope, outer, ⟨.atom text, position⟩ :: rest =>
    if scope.afterOperand then throw (.missingConnective requirement position)
    else do
      let operand ← expand text
      readTokens requirement expand (scope.push operand) outer rest

/-- The unsimplified tree of a requirement text. Each atom becomes the tree that `expand` gives
for it. -/
def buildWith (expand : String → ExceptT LogicError m Requirement) (requirement : String) :
    ExceptT LogicError m Requirement :=
  readTokens requirement expand {} [] (Token.tokenize requirement)

/-- The unsimplified tree of a requirement text whose atoms stand for themselves. -/
def build (requirement : String) : Except LogicError Requirement :=
  Id.run (buildWith (fun atom => pure (.leaf atom)) requirement).run

end Requirement

end SeedLogic
