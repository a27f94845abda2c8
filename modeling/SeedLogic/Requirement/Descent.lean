import SeedLogic.Requirement.Build

/-!
# Building a tree by recursive descent

The tokens of a requirement text can also be read without a stack: a scope reads the scopes in it
by the function that reads itself. All scopes share one cursor in the tokens, and a counter of the
parentheses that are open. The counter is raised while a scope in parentheses is read and set back
afterwards. The cursor never moves backwards, so that the recursion ends.
-/

namespace SeedLogic

/-- A position in the tokens that is not before a given one. -/
structure Cursor (start : Nat) where
  index : Nat
  start_le : start ≤ index

namespace Cursor

/-- The cursor at the first token. -/
def first : Cursor 0 := ⟨0, Nat.le_refl _⟩

variable {start : Nat}

/-- The cursor behind the token at the cursor. -/
def next (cursor : Cursor start) : Cursor start :=
  ⟨cursor.index + 1, Nat.le_succ_of_le cursor.start_le⟩

/-- The cursor at which a scope begins. -/
def here (cursor : Cursor start) : Cursor cursor.index :=
  ⟨cursor.index, Nat.le_refl _⟩

/-- The cursor behind a scope that begins at the cursor. -/
def moved (cursor : Cursor start) (later : Cursor cursor.index) : Cursor start :=
  ⟨later.index, Nat.le_trans cursor.start_le later.start_le⟩

end Cursor

/-- What is known of a scope while its tokens are read. -/
structure Frame where
  /-- The operands read so far, in their order. -/
  operands : List Requirement := []
  /-- The last connective that has been read. -/
  connective : Option Token := none
  afterOperand : Bool := false

/-- The tree of a finished scope. It is a disjunction if the connective says so. -/
def Frame.finish (frame : Frame) : Requirement :=
  match frame.connective with
  | some .or => .any frame.operands
  | _ => .all frame.operands

/-- Computations with a counter of the open parentheses, which is kept on failure. -/
abbrev Descent (m : Type → Type) := ExceptT LogicError (StateT Nat m)

namespace Descent

variable {m : Type → Type} [Monad m] {α : Type}

/-- A computation that leaves the counter alone. -/
def ofPlain (computation : ExceptT LogicError m α) : Descent m α :=
  ExceptT.mk (StateT.lift computation.run)

/-- A computation that starts with no open parenthesis. -/
def toPlain (computation : Descent m α) : ExceptT LogicError m α :=
  ExceptT.mk (computation.run.run' 0)

/-- Refuses an operand that directly follows another one. -/
def expectConnective (requirement : String) (afterOperand : Bool) (position : Nat) :
    Descent m Unit :=
  if afterOperand then throw (.missingConnective requirement position) else pure ()

/-- Goes one level deeper, unless this is too deep. The counter is set back whether the step fails
or not. -/
def withNesting (requirement : String) (step : Descent m α) : Descent m α :=
  ExceptT.mk do
    let depth := (← get) + 1
    if Requirement.maxNesting < depth then
      pure (.error (.nestingTooDeep requirement Requirement.maxNesting))
    else do
      set depth
      let result ← step.run
      modify (· - 1)
      pure result

/-- Reads the tokens of a scope from the cursor on. A nested scope ends with a closing parenthesis,
the outermost one with the text. The result is the tree of the scope and the cursor behind it. -/
def readScope (requirement : String) (tokens : Array PlacedToken)
    (expand : String → ExceptT LogicError m Requirement) (nested : Bool) {start : Nat}
    (frame : Frame) (cursor : Cursor start) : Descent m (Requirement × Cursor start) :=
  if h : cursor.index < tokens.size then
    match tokens[cursor.index] with
    | ⟨.opening, position⟩ => do
      expectConnective requirement frame.afterOperand position
      let (child, later) ← withNesting requirement
        (readScope requirement tokens expand true {} cursor.next.here)
      readScope requirement tokens expand nested
        { frame with operands := frame.operands ++ [child], afterOperand := true }
        (cursor.next.moved later)
    | ⟨.closing, position⟩ =>
      if nested then pure (frame.finish, cursor.next)
      else throw (.unbalancedParentheses requirement position)
    | ⟨.atom text, position⟩ => do
      expectConnective requirement frame.afterOperand position
      let operand ← ofPlain (expand text)
      readScope requirement tokens expand nested
        { frame with operands := frame.operands ++ [operand], afterOperand := true } cursor.next
    | ⟨connective, position⟩ =>
      if frame.connective.any (· ≠ connective) then throw (.mixedConnectives requirement position)
      else
        readScope requirement tokens expand nested
          { frame with connective := some connective, afterOperand := false } cursor.next
  else if nested then throw (.unbalancedParentheses requirement requirement.utf8ByteSize)
  else pure (frame.finish, cursor)
termination_by tokens.size - cursor.index
decreasing_by
  · exact Nat.sub_lt_sub_left h (Nat.lt_succ_self _)
  · exact Nat.sub_lt_sub_left h later.start_le
  · exact Nat.sub_lt_sub_left h (Nat.lt_succ_self _)
  · exact Nat.sub_lt_sub_left h (Nat.lt_succ_self _)

end Descent

/-- The unsimplified tree of a requirement text, by recursive descent. -/
def Requirement.descend {m : Type → Type} [Monad m]
    (expand : String → ExceptT LogicError m Requirement) (requirement : String) :
    ExceptT LogicError m Requirement := do
  let (tree, _) ← Descent.toPlain (Descent.readScope requirement
    (Token.tokenize requirement).toArray expand false {} Cursor.first)
  pure tree

end SeedLogic
