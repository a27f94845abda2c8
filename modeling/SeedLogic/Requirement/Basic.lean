/-!
# Requirement trees

A requirement is a tree of conjunctions and disjunctions over leaves. A leaf is the text of an
item requirement or one of two terminals: `Nothing` always holds, `Impossible` never does.
-/

namespace SeedLogic

/-- A resolved requirement. An empty conjunction holds and an empty disjunction does not. -/
inductive Requirement where
  | leaf (text : String)
  | all (operands : List Requirement)
  | any (operands : List Requirement)
deriving Repr

/-- The two ways of joining operands. -/
inductive Connective where
  | and
  | or
deriving DecidableEq, Repr

namespace Requirement

/-- The leaf text that always holds. -/
def nothingText : String := "Nothing"

/-- The leaf text that never holds. -/
def impossibleText : String := "Impossible"

/-- The terminal that always holds. -/
def nothing : Requirement := .leaf nothingText

/-- The terminal that never holds. -/
def impossible : Requirement := .leaf impossibleText

/-- A leaf text is terminal when its truth is fixed. -/
def isTerminal (text : String) : Bool :=
  text = nothingText || text = impossibleText

/-- Whether the tree is the terminal that always holds. -/
def isNothing : Requirement → Bool
  | .leaf text => text = nothingText
  | _ => false

/-- Whether the tree is the terminal that never holds. -/
def isImpossible : Requirement → Bool
  | .leaf text => text = impossibleText
  | _ => false

/-- The operands joined by a connective. -/
def join : Connective → List Requirement → Requirement
  | .and => .all
  | .or => .any

/-- Induction on trees that treats both connectives at once. -/
@[elab_as_elim]
theorem joinInduction {motive : Requirement → Prop} (leaf : ∀ text, motive (.leaf text))
    (node : ∀ connective operands, (∀ r ∈ operands, motive r) → motive (join connective operands)) :
    ∀ r, motive r
  | .leaf text => leaf text
  | .all operands => node .and operands fun r _ => joinInduction leaf node r
  | .any operands => node .or operands fun r _ => joinInduction leaf node r

mutual

/-- Structural equality of trees. -/
def beq : Requirement → Requirement → Bool
  | .leaf a, .leaf b => a = b
  | .all as, .all bs => beqList as bs
  | .any as, .any bs => beqList as bs
  | _, _ => false

/-- Structural equality of operand lists. -/
def beqList : List Requirement → List Requirement → Bool
  | [], [] => true
  | a :: as, b :: bs => beq a b && beqList as bs
  | _, _ => false

end

mutual

private theorem eq_of_beq : ∀ {a b : Requirement}, beq a b = true → a = b
  | .leaf a, .leaf b, h => by simpa [beq] using h
  | .all as, .all bs, h => congrArg _ (eq_of_beqList (by simpa [beq] using h))
  | .any as, .any bs, h => congrArg _ (eq_of_beqList (by simpa [beq] using h))
  | .leaf _, .all _, h => by simp [beq] at h
  | .leaf _, .any _, h => by simp [beq] at h
  | .all _, .leaf _, h => by simp [beq] at h
  | .all _, .any _, h => by simp [beq] at h
  | .any _, .leaf _, h => by simp [beq] at h
  | .any _, .all _, h => by simp [beq] at h

private theorem eq_of_beqList : ∀ {as bs : List Requirement}, beqList as bs = true → as = bs
  | [], [], _ => rfl
  | a :: as, b :: bs, h => by
    simp only [beqList, Bool.and_eq_true] at h
    rw [eq_of_beq h.1, eq_of_beqList h.2]
  | [], _ :: _, h => by simp [beqList] at h
  | _ :: _, [], h => by simp [beqList] at h

end

mutual

private theorem beq_self : ∀ a : Requirement, beq a a = true
  | .leaf a => by simp [beq]
  | .all as => by simpa [beq] using beqList_self as
  | .any as => by simpa [beq] using beqList_self as

private theorem beqList_self : ∀ as : List Requirement, beqList as as = true
  | [] => rfl
  | a :: as => by simp [beqList, beq_self a, beqList_self as]

end

/-- Equality of trees is decided by comparing them node by node. -/
instance : DecidableEq Requirement := fun a b =>
  if h : beq a b = true then isTrue (eq_of_beq h)
  else isFalse fun heq => h (heq ▸ beq_self a)

mutual

/-- The number of nodes, leaves included. -/
def nodeCount : Requirement → Nat
  | .leaf _ => 1
  | .all operands => 1 + nodeCountList operands
  | .any operands => 1 + nodeCountList operands

/-- The number of nodes of a list of trees. -/
def nodeCountList : List Requirement → Nat
  | [] => 0
  | r :: rs => nodeCount r + nodeCountList rs

end

mutual

/-- The leaf texts from left to right, terminals included. -/
def leaves : Requirement → List String
  | .leaf text => [text]
  | .all operands => leavesList operands
  | .any operands => leavesList operands

/-- The leaf texts of a list of trees. -/
def leavesList : List Requirement → List String
  | [] => []
  | r :: rs => leaves r ++ leavesList rs

end

/-- The item requirements of a tree: its leaf texts without the terminals, from left to
right. -/
def items (r : Requirement) : List String :=
  r.leaves.filter fun text => !isTerminal text

/-- Puts the text of a tree in parentheses unless the tree is a leaf. -/
def enclose : Requirement → String → String
  | .leaf _, text => text
  | _, text => "(" ++ text ++ ")"

mutual

/-- The tree in requirement syntax. An empty conjunction is written as the terminal that always
holds and an empty disjunction as the one that never does. -/
def render : Requirement → String
  | .leaf text => text
  | .all [] => nothingText
  | .all (r :: rs) => " & ".intercalate (renderOperands (r :: rs))
  | .any [] => impossibleText
  | .any (r :: rs) => " | ".intercalate (renderOperands (r :: rs))

/-- The texts of the operands, those that are not leaves in parentheses. -/
def renderOperands : List Requirement → List String
  | [] => []
  | r :: rs => enclose r (render r) :: renderOperands rs

end

instance : ToString Requirement := ⟨render⟩

end Requirement

end SeedLogic
