import SeedLogic.Proofs.Requirement.Building
import SeedLogic.Proofs.Requirement.Substitution

/-!
# Scopes of a requirement text

Reading a requirement text from left to right keeps the scopes that are open, each with the
connectives, atoms and finished scopes that it holds so far. The scopes alone decide whether the
next token fits. So the atoms may be read before any of them is expanded: building a tree is
reading the text up to the first token that does not fit, and then expanding the atoms before it in
their order. When every token fits and every scope is closed, the built tree is the tree of the
text with the expansion of every atom in its place.

## Main definitions

* `Part` : what stands in a scope, with its tokens and its tree.
* `OpenScopes` : the scopes that are open at some place of a text.
* `OpenScopes.fault?` : why a token does not fit.

## Main results

* `OpenScopes.tokens_read` : no token is lost while reading.
* `OpenScopes.resume_of_fits`, `OpenScopes.resume_of_fault` : what one token does to a build.
* `Requirement.build_verdict` : building is substitution into the tree of the text, or fails.
* `Requirement.exists_subst_of_run_buildWith` : builds that have a result.
-/

namespace SeedLogic

open Requirement

/-! ### Parts of a scope -/

/-- The other connective. -/
def Connective.other : Connective → Connective
  | .and => .or
  | .or => .and

/-- What stands in a scope. -/
inductive Part where
  | sign (connective : Connective)
  | atom (text : String)
  | scope (parts : List Part)

namespace Part

/-- Whether a part is an operand of its scope. -/
def isOperand : Part → Bool
  | .sign _ => false
  | .atom _ => true
  | .scope _ => true

/-- The connective that a part is. -/
def connective? : Part → Option Connective
  | .sign connective => some connective
  | .atom _ => none
  | .scope _ => none

/-- The connectives that occur in a scope, not counting those of the scopes in it. -/
def connectives (parts : List Part) : List Connective :=
  parts.filterMap connective?

/-- The connective that joins the operands of a scope. -/
def joining (parts : List Part) : Connective :=
  if .or ∈ connectives parts then .or else .and

mutual

/-- The tokens of a part. -/
def tokens : Part → List Token
  | .sign connective => [connective.token]
  | .atom text => [.atom text]
  | .scope parts => [.opening] ++ tokensList parts ++ [.closing]

/-- The tokens of a list of parts. -/
def tokensList : List Part → List Token
  | [] => []
  | part :: parts => tokens part ++ tokensList parts

end

mutual

/-- The operand that a part is, if any. The atoms stand for themselves. -/
def operands : Part → List Requirement
  | .sign _ => []
  | .atom text => [.leaf text]
  | .scope parts => [join (joining parts) (operandsList parts)]

/-- The operands of a scope. -/
def operandsList : List Part → List Requirement
  | [] => []
  | part :: parts => operands part ++ operandsList parts

end

/-- The tree of a scope: its operands are joined by a disjunction when one stands among them, and
by a conjunction otherwise. -/
def tree (parts : List Part) : Requirement :=
  join (joining parts) (operandsList parts)

theorem tokensList_append (parts others : List Part) :
    tokensList (parts ++ others) = tokensList parts ++ tokensList others := by
  induction parts with
  | nil => rw [List.nil_append, tokensList, List.nil_append]
  | cons part parts ih => rw [List.cons_append, tokensList, tokensList, ih, List.append_assoc]

theorem operandsList_append (parts others : List Part) :
    operandsList (parts ++ others) = operandsList parts ++ operandsList others := by
  induction parts with
  | nil => rw [List.nil_append, operandsList, List.nil_append]
  | cons part parts ih =>
    rw [List.cons_append, operandsList, operandsList, ih, List.append_assoc]

/-- A connective is the last one of the scope to which it is added. -/
theorem connectives_append_sign (parts : List Part) (connective : Connective) :
    connectives (parts ++ [.sign connective]) = connectives parts ++ [connective] := by
  rw [connectives, List.filterMap_append]
  rfl

/-- A connective that is added is not the other one. -/
theorem other_notMem_append_sign {parts : List Part} {connective : Connective}
    (h : connective.other ∉ connectives parts) :
    connective.other ∉ connectives (parts ++ [.sign connective]) := by
  have hne : connective.other ≠ connective := by cases connective <;> decide
  rw [connectives_append_sign, List.mem_append, List.mem_singleton]
  exact not_or.2 ⟨h, hne⟩

/-- An operand adds no connective. -/
theorem connectives_append_operand (parts : List Part) {part : Part}
    (hpart : part.isOperand = true) : connectives (parts ++ [part]) = connectives parts := by
  have hnone : [part].filterMap connective? = [] := by
    cases part with
    | sign connective => exact absurd hpart (by simp [isOperand])
    | atom text => rfl
    | scope parts => rfl
  rw [connectives, List.filterMap_append, hnone, List.append_nil]
  rfl

end Part

/-! ### Open scopes -/

/-- The scopes that are open at some place of a text, each with what it holds so far. -/
structure OpenScopes where
  /-- The parts of the innermost scope. -/
  innermost : List Part := []
  /-- The parts of the scopes around it, innermost first. -/
  outer : List (List Part) := []

namespace OpenScopes

/-- Whether the last thing read in the innermost scope is an operand. -/
def afterOperand (scopes : OpenScopes) : Bool :=
  scopes.innermost.getLast?.any Part.isOperand

/-- The scopes with a part added to the innermost one. -/
def add (scopes : OpenScopes) (part : Part) : OpenScopes :=
  { scopes with innermost := scopes.innermost ++ [part] }

/-- The scopes after a token. Where no scope can be closed, closing one changes nothing. -/
def read (scopes : OpenScopes) : Token → OpenScopes
  | .and => scopes.add (.sign .and)
  | .or => scopes.add (.sign .or)
  | .atom text => scopes.add (.atom text)
  | .opening => { innermost := [], outer := scopes.innermost :: scopes.outer }
  | .closing =>
    match scopes.outer with
    | [] => scopes
    | enclosing :: outer =>
      { innermost := enclosing ++ [.scope scopes.innermost], outer := outer }

/-- Why a token does not fit when it is the next one: a connective differs from one of its scope,
an operand follows another one, too many scopes are open, or none is. -/
def fault? (requirement : String) (scopes : OpenScopes) (placed : PlacedToken) :
    Option LogicError :=
  match placed.token with
  | .and =>
    if .or ∈ Part.connectives scopes.innermost then
      some (.mixedConnectives requirement placed.position)
    else none
  | .or =>
    if .and ∈ Part.connectives scopes.innermost then
      some (.mixedConnectives requirement placed.position)
    else none
  | .opening =>
    if scopes.afterOperand then some (.missingConnective requirement placed.position)
    else if maxNesting ≤ scopes.outer.length then some (.nestingTooDeep requirement maxNesting)
    else none
  | .closing =>
    if scopes.outer = [] then some (.unbalancedParentheses requirement placed.position) else none
  | .atom _ =>
    if scopes.afterOperand then some (.missingConnective requirement placed.position) else none

/-- The tokens read so far. -/
def tokens (scopes : OpenScopes) : List Token :=
  (scopes.outer.reverse.flatMap fun parts => Part.tokensList parts ++ [.opening]) ++
    Part.tokensList scopes.innermost

/-- A connective is added to the innermost scope. -/
theorem read_connective (scopes : OpenScopes) (connective : Connective) :
    scopes.read connective.token = scopes.add (.sign connective) := by
  cases connective <;> rfl

/-- A connective fits unless the other one occurs in the innermost scope. -/
theorem fault?_connective (requirement : String) (scopes : OpenScopes) (connective : Connective)
    (position : Nat) :
    scopes.fault? requirement ⟨connective.token, position⟩ =
      if connective.other ∈ Part.connectives scopes.innermost then
        some (.mixedConnectives requirement position)
      else none := by
  cases connective <;> rfl

theorem tokens_add (scopes : OpenScopes) (part : Part) :
    (scopes.add part).tokens = scopes.tokens ++ part.tokens := by
  have hpart : Part.tokensList [part] = part.tokens := by
    rw [Part.tokensList, Part.tokensList, List.append_nil]
  rw [tokens, add, Part.tokensList_append, hpart, tokens, List.append_assoc]

/-- A token that fits is read and no other token is lost. -/
theorem tokens_read {requirement : String} {scopes : OpenScopes} {placed : PlacedToken}
    (h : scopes.fault? requirement placed = none) :
    (scopes.read placed.token).tokens = scopes.tokens ++ [placed.token] := by
  obtain ⟨token, position⟩ := placed
  cases token using Token.connectiveCases with
  | connective connective => rw [read_connective, tokens_add, Part.tokens]
  | atom text => rw [read, tokens_add, Part.tokens]
  | opening => simp [read, tokens, Part.tokensList]
  | closing =>
    obtain ⟨innermost, outer⟩ := scopes
    cases outer with
    | nil => exact absurd h (by simp [fault?])
    | cons enclosing outer =>
      simp [read, tokens, Part.tokensList_append, Part.tokensList, Part.tokens]

end OpenScopes

/-! ### Scopes with expanded atoms -/

/-- The scope with the given parts and operands as it is kept while a tree is built. -/
def Scope.ofParts (operands : List Requirement) (parts : List Part) : Scope where
  operands := operands.reverse
  connective :=
    if .or ∈ Part.connectives parts then some .or
    else if .and ∈ Part.connectives parts then some .and
    else none
  afterOperand := parts.getLast?.any Part.isOperand

namespace Scope

variable (operands : List Requirement) (parts : List Part)

theorem ofParts_nil : ofParts [] [] = {} := rfl

theorem close_ofParts : (ofParts operands parts).close = join (Part.joining parts) operands := by
  rw [close, ofParts, Part.joining, List.reverse_reverse]
  by_cases hor : .or ∈ Part.connectives parts
  · simp [hor]
  · by_cases hand : .and ∈ Part.connectives parts <;> simp [hor, hand]

theorem push_ofParts {part : Part} (hpart : part.isOperand = true) (operand : Requirement) :
    (ofParts operands parts).push operand = ofParts (operands ++ [operand]) (parts ++ [part]) := by
  simp [push, ofParts, hpart, Part.connectives_append_operand parts hpart]

variable {operands parts}

/-- A connective joins a scope in which the other one does not occur. -/
theorem connect?_ofParts {connective : Connective}
    (h : connective.other ∉ Part.connectives parts) :
    (ofParts operands parts).connect? connective =
      some (ofParts operands (parts ++ [.sign connective])) := by
  cases connective with
  | and =>
    have hor : .or ∉ Part.connectives parts := h
    by_cases hand : .and ∈ Part.connectives parts <;>
      simp [connect?, ofParts, Part.connectives_append_sign, Part.isOperand, hor, hand]
  | or =>
    have hand : .and ∉ Part.connectives parts := h
    by_cases hor : .or ∈ Part.connectives parts <;>
      simp [connect?, ofParts, Part.connectives_append_sign, Part.isOperand, hor, hand]

/-- A connective does not join a scope of the other one. -/
theorem connect?_ofParts_eq_none {connective : Connective}
    (hother : connective.other ∈ Part.connectives parts)
    (hself : connective ∉ Part.connectives parts) :
    (ofParts operands parts).connect? connective = none := by
  cases connective with
  | and =>
    have hor : .or ∈ Part.connectives parts := hother
    simp [connect?, ofParts, hor]
  | or =>
    have hand : .and ∈ Part.connectives parts := hother
    simp [connect?, ofParts, hself, hand]

end Scope

/-! ### Building from open scopes -/

namespace OpenScopes

/-- In no open scope both connectives occur. -/
def Uniform (scopes : OpenScopes) : Prop :=
  ∀ parts ∈ scopes.innermost :: scopes.outer,
    .and ∈ Part.connectives parts → .or ∉ Part.connectives parts

variable {requirement : String} {scopes : OpenScopes} {placed : PlacedToken}

/-- The scope of an empty text is uniform. -/
theorem uniform_empty : Uniform {} := by
  intro parts hparts hand
  obtain rfl : parts = [] := by simpa using hparts
  exact absurd hand (by simp [Part.connectives])

private theorem Uniform.not_mem_of_other (h : scopes.Uniform) {connective : Connective}
    (hother : connective.other ∈ Part.connectives scopes.innermost) :
    connective ∉ Part.connectives scopes.innermost := by
  cases connective with
  | and => exact fun hand => h _ List.mem_cons_self hand hother
  | or => exact h _ List.mem_cons_self hother

private theorem Uniform.add_sign (h : scopes.Uniform) {connective : Connective}
    (hfits : connective.other ∉ Part.connectives scopes.innermost) :
    (scopes.add (.sign connective)).Uniform := by
  intro parts hparts
  rcases List.mem_cons.1 hparts with rfl | houter
  · rw [add, Part.connectives_append_sign]
    cases connective with
    | and =>
      have hor : .or ∉ Part.connectives scopes.innermost := hfits
      simp [hor]
    | or =>
      have hand : .and ∉ Part.connectives scopes.innermost := hfits
      simp [hand]
  · exact h parts (List.mem_cons_of_mem _ houter)

private theorem Uniform.add_operand (h : scopes.Uniform) (part : Part)
    (hpart : part.isOperand = true) : (scopes.add part).Uniform := by
  intro parts hparts
  rcases List.mem_cons.1 hparts with rfl | houter
  · rw [add, Part.connectives_append_operand _ hpart]
    exact h scopes.innermost List.mem_cons_self
  · exact h parts (List.mem_cons_of_mem _ houter)

/-- A token that fits keeps the open scopes uniform. -/
theorem Uniform.read (h : scopes.Uniform) (hfits : scopes.fault? requirement placed = none) :
    (scopes.read placed.token).Uniform := by
  obtain ⟨token, position⟩ := placed
  cases token using Token.connectiveCases with
  | connective connective =>
    rw [read_connective]
    exact h.add_sign (by simpa [fault?_connective] using hfits)
  | atom text => exact h.add_operand (.atom text) rfl
  | opening =>
    intro parts hparts
    rcases List.mem_cons.1 hparts with rfl | hold
    · simp [OpenScopes.read, Part.connectives]
    · exact h parts hold
  | closing =>
    obtain ⟨innermost, outer⟩ := scopes
    cases outer with
    | nil => exact absurd hfits (by simp [fault?])
    | cons enclosing outer =>
      have houter : Uniform ⟨enclosing, outer⟩ := fun parts hparts =>
        h parts (List.mem_cons_of_mem _ hparts)
      exact houter.add_operand (.scope innermost) rfl

variable {m : Type → Type} [Monad m] (expand : String → ExceptT LogicError m Requirement)

/-- The scope that a build keeps for the given parts, once their atoms are expanded. -/
def expandParts (parts : List Part) : ExceptT LogicError m Scope := do
  let operands ← (Part.operandsList parts).mapM (substM expand)
  pure (.ofParts operands parts)

/-- The scopes that a build keeps around the innermost one. -/
def expandOuter : List (List Part) → ExceptT LogicError m (List Scope)
  | [] => pure []
  | parts :: outer => do
    let scopes ← expandOuter outer
    let scope ← expandParts expand parts
    pure (scope :: scopes)

/-- The scopes that a build keeps, once the atoms read so far are expanded in their order. -/
def expandAll (scopes : OpenScopes) : ExceptT LogicError m (Scope × List Scope) := do
  let outer ← expandOuter expand scopes.outer
  let innermost ← expandParts expand scopes.innermost
  pure (innermost, outer)

/-- Expands the atoms read so far and goes on building with the tokens that remain. -/
def resume (requirement : String) (scopes : OpenScopes) (remaining : List PlacedToken) :
    ExceptT LogicError m Requirement := do
  let (innermost, outer) ← scopes.expandAll expand
  readTokens requirement expand innermost outer remaining

section Lawful

variable [LawfulMonad m] {expand}

theorem expandParts_add_atom (parts : List Part) (text : String) :
    expandParts expand (parts ++ [.atom text]) = (do
      let scope ← expandParts expand parts
      let operand ← expand text
      pure (scope.push operand)) := by
  have hpush (operands : List Requirement) (operand : Requirement) :=
    Scope.push_ofParts operands parts (show (Part.atom text).isOperand = true from rfl) operand
  simp only [expandParts, Part.operandsList_append, Part.operandsList, Part.operands,
    List.append_nil, List.mapM_append, List.mapM_cons, List.mapM_nil, substM_leaf, bind_assoc,
    pure_bind, hpush]

theorem expandParts_add_scope (parts inner : List Part) :
    expandParts expand (parts ++ [.scope inner]) = (do
      let scope ← expandParts expand parts
      let closed ← expandParts expand inner
      pure (scope.push closed.close)) := by
  have hpush (operands : List Requirement) (operand : Requirement) :=
    Scope.push_ofParts operands parts (show (Part.scope inner).isOperand = true from rfl) operand
  simp only [expandParts, Part.operandsList_append, Part.operandsList, Part.operands,
    List.append_nil, List.mapM_append, List.mapM_cons, List.mapM_nil, substM_join, bind_assoc,
    bind_map_left, pure_bind, hpush, Scope.close_ofParts]

/-- As many scopes are kept around the innermost one as are open around it. -/
theorem expandOuter_bind_congr {α : Type} (outer : List (List Part))
    {f g : List Scope → ExceptT LogicError m α}
    (h : ∀ scopes : List Scope, scopes.length = outer.length → f scopes = g scopes) :
    expandOuter expand outer >>= f = expandOuter expand outer >>= g := by
  induction outer generalizing f g with
  | nil => simpa only [expandOuter, pure_bind] using h [] rfl
  | cons parts outer ih =>
    simp only [expandOuter, bind_assoc, pure_bind]
    refine ih fun scopes hlength => ?_
    have hcons (scope : Scope) : f (scope :: scopes) = g (scope :: scopes) :=
      h (scope :: scopes) (by simp [hlength])
    simp only [hcons]

/-- A build fails at a token that does not fit, once the atoms before it are expanded. -/
theorem resume_of_fault {remaining : List PlacedToken} {e : LogicError} (huniform : scopes.Uniform)
    (h : scopes.fault? requirement placed = some e) :
    resume expand requirement scopes (placed :: remaining) =
      (do let _ ← scopes.expandAll expand; throw e) := by
  obtain ⟨token, position⟩ := placed
  obtain ⟨innermost, outer⟩ := scopes
  cases token using Token.connectiveCases with
  | connective connective =>
    obtain ⟨hother, rfl⟩ : connective.other ∈ Part.connectives innermost ∧
        .mixedConnectives requirement position = e := by
      simpa [fault?_connective] using h
    have hnone (operands : List Requirement) :
        (Scope.ofParts operands innermost).connect? connective = none :=
      Scope.connect?_ofParts_eq_none hother (huniform.not_mem_of_other hother)
    simp only [resume, expandAll, expandParts, bind_assoc, pure_bind, readTokens_connective, hnone]
  | atom text =>
    obtain ⟨hafter, rfl⟩ : afterOperand ⟨innermost, outer⟩ = true ∧
        .missingConnective requirement position = e := by
      simpa [fault?] using h
    have hscope (operands : List Requirement) :
        (Scope.ofParts operands innermost).afterOperand = true := hafter
    simp only [resume, expandAll, expandParts, bind_assoc, pure_bind, readTokens, hscope, if_true]
  | opening =>
    cases hafter : afterOperand ⟨innermost, outer⟩ with
    | true =>
      obtain rfl : .missingConnective requirement position = e := by
        simpa [fault?, hafter] using h
      have hscope (operands : List Requirement) :
          (Scope.ofParts operands innermost).afterOperand = true := hafter
      simp only [resume, expandAll, expandParts, bind_assoc, pure_bind, readTokens, hscope,
        if_true]
    | false =>
      obtain ⟨hdeep, rfl⟩ : maxNesting ≤ outer.length ∧
          .nestingTooDeep requirement maxNesting = e := by
        simpa [fault?, hafter] using h
      have hscope (operands : List Requirement) :
          (Scope.ofParts operands innermost).afterOperand = false := hafter
      simp only [resume, expandAll, expandParts, bind_assoc, pure_bind, readTokens, hscope,
        Bool.false_eq_true, if_false]
      refine expandOuter_bind_congr outer fun scopes hlength => ?_
      simp only [hlength, if_pos hdeep]
  | closing =>
    obtain ⟨rfl, rfl⟩ : outer = [] ∧ .unbalancedParentheses requirement position = e := by
      simpa [fault?] using h
    simp only [resume, expandAll, expandOuter, bind_assoc, pure_bind, readTokens]

/-- A build reads a token that fits. -/
theorem resume_of_fits {remaining : List PlacedToken}
    (h : scopes.fault? requirement placed = none) :
    resume expand requirement scopes (placed :: remaining) =
      resume expand requirement (scopes.read placed.token) remaining := by
  obtain ⟨token, position⟩ := placed
  obtain ⟨innermost, outer⟩ := scopes
  cases token using Token.connectiveCases with
  | connective connective =>
    have hother : connective.other ∉ Part.connectives innermost := by
      simpa [fault?_connective] using h
    simp only [resume, expandAll, expandParts, read_connective, add, bind_assoc, pure_bind,
      readTokens_connective, Scope.connect?_ofParts hother, Part.operandsList_append,
      Part.operandsList, Part.operands, List.append_nil]
  | atom text =>
    have hafter : afterOperand ⟨innermost, outer⟩ = false := by
      simpa [fault?] using h
    have hscope (operands : List Requirement) :
        (Scope.ofParts operands innermost).afterOperand = false := hafter
    have hread (operands : List Requirement) (outer : List Scope) :
        readTokens requirement expand (.ofParts operands innermost) outer
            (⟨.atom text, position⟩ :: remaining) = (do
          let operand ← expand text
          readTokens requirement expand ((Scope.ofParts operands innermost).push operand) outer
            remaining) := by
      rw [readTokens, hscope, if_neg Bool.false_ne_true]
    simp only [resume, expandAll, OpenScopes.read, add, expandParts_add_atom]
    simp only [expandParts, bind_assoc, pure_bind, hread]
  | opening =>
    have hafter : afterOperand ⟨innermost, outer⟩ = false := by
      refine Bool.eq_false_iff.2 fun hafter => ?_
      exact absurd h (by simp [fault?, hafter])
    have hdepth : ¬maxNesting ≤ outer.length := by
      simpa [fault?, hafter] using h
    have hscope (operands : List Requirement) :
        (Scope.ofParts operands innermost).afterOperand = false := hafter
    simp only [resume, expandAll, OpenScopes.read, expandOuter, bind_assoc, pure_bind]
    refine expandOuter_bind_congr outer fun scopes hlength => ?_
    simp only [expandParts, bind_assoc, pure_bind, Part.operandsList, List.mapM_nil,
      Scope.ofParts_nil, readTokens, hlength, hscope, Bool.false_eq_true, if_false, if_neg hdepth]
  | closing =>
    cases outer with
    | nil => exact absurd h (by simp [fault?])
    | cons enclosing outer =>
      simp only [resume, expandAll, OpenScopes.read, expandOuter, expandParts_add_scope,
        bind_assoc, pure_bind, readTokens]

/-- A build ends with a finished scope when no scope is open any more. -/
theorem resume_nil_of_closed (h : scopes.outer = []) :
    resume expand requirement scopes [] = (Part.tree scopes.innermost).substM expand := by
  obtain ⟨innermost, outer⟩ := scopes
  obtain rfl : outer = [] := h
  simp only [resume, expandAll, expandOuter, expandParts, bind_assoc, pure_bind, readTokens,
    Scope.close_ofParts, Part.tree, substM_join, map_eq_pure_bind]

/-- A build fails at the end when a scope is still open. -/
theorem resume_nil_of_open (h : scopes.outer ≠ []) :
    resume expand requirement scopes [] = (do
      let _ ← scopes.expandAll expand
      throw (.unbalancedParentheses requirement requirement.utf8ByteSize)) := by
  obtain ⟨innermost, outer⟩ := scopes
  cases outer with
  | nil => exact absurd rfl h
  | cons enclosing outer =>
    simp only [resume, expandAll, expandOuter, bind_assoc, pure_bind, readTokens]

/-- Building begins with no scope open around the text. -/
theorem buildWith_eq_resume :
    buildWith expand requirement = resume expand requirement {} (Token.tokenize requirement) := by
  simp only [buildWith, resume, expandAll, expandOuter, expandParts, Part.operandsList,
    List.mapM_nil, Scope.ofParts_nil, pure_bind]

/-- Leaves that stand for themselves are expanded without failure. -/
theorem exists_expandAll_eq_pure (scopes : OpenScopes) :
    ∃ kept, scopes.expandAll (fun atom => (pure (.leaf atom) : ExceptT LogicError m Requirement)) =
      pure kept := by
  have hparts (parts : List Part) : expandParts
      (fun atom => (pure (.leaf atom) : ExceptT LogicError m Requirement)) parts =
        pure (.ofParts (Part.operandsList parts) parts) := by
    have hleaf : (substM fun atom => (pure (.leaf atom) : ExceptT LogicError m Requirement)) =
        fun r => pure (id r) := funext substM_pure_leaf
    rw [expandParts, hleaf, List.mapM_pure, List.map_id, pure_bind]
  have houter (outer : List (List Part)) : ∃ kept, expandOuter
      (fun atom => (pure (.leaf atom) : ExceptT LogicError m Requirement)) outer = pure kept := by
    induction outer with
    | nil => exact ⟨[], rfl⟩
    | cons parts outer ih =>
      obtain ⟨kept, hkept⟩ := ih
      exact ⟨_, by rw [expandOuter, hkept, pure_bind, hparts, pure_bind]⟩
  obtain ⟨kept, hkept⟩ := houter scopes.outer
  exact ⟨_, by rw [expandAll, hkept, pure_bind, hparts, pure_bind]⟩

end Lawful

/-- A text either has a tree, in which every build substitutes, or every build fails with one error
after expanding the atoms of one part of the text. -/
private theorem resume_verdict (huniform : scopes.Uniform) (remaining : List PlacedToken) :
    (∃ literal : Requirement, ∀ (m : Type → Type) [Monad m] [LawfulMonad m]
      (expand : String → ExceptT LogicError m Requirement),
        resume expand requirement scopes remaining = literal.substM expand) ∨
    ∃ (stopped : OpenScopes) (e : LogicError), ∀ (m : Type → Type) [Monad m] [LawfulMonad m]
      (expand : String → ExceptT LogicError m Requirement),
        resume expand requirement scopes remaining =
          (do let _ ← stopped.expandAll expand; throw e) := by
  induction remaining generalizing scopes with
  | nil =>
    by_cases hclosed : scopes.outer = []
    · exact Or.inl ⟨_, fun m _ _ expand => resume_nil_of_closed hclosed⟩
    · exact Or.inr ⟨scopes, _, fun m _ _ expand => resume_nil_of_open hclosed⟩
  | cons placed remaining ih =>
    cases hfault : scopes.fault? requirement placed with
    | some e => exact Or.inr ⟨scopes, e, fun m _ _ expand => resume_of_fault huniform hfault⟩
    | none =>
      rcases ih (huniform.read hfault) with ⟨literal, h⟩ | ⟨stopped, e, h⟩
      · exact Or.inl ⟨literal, fun m _ _ expand => (resume_of_fits hfault).trans (h m expand)⟩
      · exact Or.inr ⟨stopped, e, fun m _ _ expand => (resume_of_fits hfault).trans (h m expand)⟩

end OpenScopes

namespace Requirement

/-- A text either has a tree, and then building is substituting the expansions of its atoms for the
leaves of that tree, or every build fails with the error of the text after expanding the atoms of
one part of it. -/
theorem build_verdict (requirement : String) :
    (∃ literal, build requirement = .ok literal ∧
      ∀ (m : Type → Type) [Monad m] [LawfulMonad m]
        (expand : String → ExceptT LogicError m Requirement),
          buildWith expand requirement = literal.substM expand) ∨
    ∃ (e : LogicError) (stopped : OpenScopes), build requirement = .error e ∧
      ∀ (m : Type → Type) [Monad m] [LawfulMonad m]
        (expand : String → ExceptT LogicError m Requirement),
          buildWith expand requirement = (do let _ ← stopped.expandAll expand; throw e) := by
  rcases OpenScopes.resume_verdict OpenScopes.uniform_empty (Token.tokenize requirement) with
    ⟨literal, h⟩ | ⟨stopped, e, h⟩
  · refine Or.inl ⟨literal, ?_,
      fun m _ _ expand => OpenScopes.buildWith_eq_resume.trans (h m expand)⟩
    rw [build, OpenScopes.buildWith_eq_resume, h, substM_pure_leaf]
    rfl
  · refine Or.inr ⟨e, stopped, ?_,
      fun m _ _ expand => OpenScopes.buildWith_eq_resume.trans (h m expand)⟩
    obtain ⟨kept, hkept⟩ := OpenScopes.exists_expandAll_eq_pure (m := Id) stopped
    rw [build, OpenScopes.buildWith_eq_resume, h, hkept]
    rfl

/-- A build that may fail or have no result has one only if the text has a tree and every atom of
it an expansion. The result is the tree with the expansions in place of the atoms. -/
theorem exists_subst_of_run_buildWith
    {expand : String → ExceptT LogicError Option Requirement} {requirement : String}
    {r : Requirement} (h : (buildWith expand requirement).run = some (.ok r)) :
    ∃ (literal : Requirement) (f : String → Requirement), build requirement = .ok literal ∧
      (∀ text ∈ literal.leaves, (expand text).run = some (.ok (f text))) ∧
        r = literal.subst f := by
  rcases build_verdict requirement with ⟨literal, hbuild, hall⟩ | ⟨e, stopped, -, hall⟩
  · rw [hall] at h
    obtain ⟨f, hleaves, hr⟩ := exists_subst_of_run_substM h
    exact ⟨literal, f, hbuild, hleaves, hr⟩
  · rw [hall] at h
    obtain ⟨kept, -, hthrow⟩ := exists_of_run_bind h
    exact absurd hthrow (by simp)

end Requirement

end SeedLogic
