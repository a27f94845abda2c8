import Mathlib.Data.List.Chain
import SeedLogic.Proofs.Requirement.Reading

/-!
# The grammar of requirement texts

A requirement text is meant to be an expression: terms with a connective between each two of them,
where a term is an atom or an expression in parentheses, all connectives of an expression are the
same, and parentheses nest up to a limit. The tokens that can be built are those of a larger
language. It asks for a connective between two operands and for one connective in each scope, but
for no operand beside a connective and for no operand between two parentheses.

Both are stated as grammars over tokens. The larger one is read from left to right, which is what
building does, one scope at a time. A list of tokens is an expression exactly when it can be built
and no operand is missing in it, where a missing operand shows in two neighbouring tokens.

## Main definitions

* `Requirement.Generates` : the tokens of terms and expressions.
* `Requirement.Accepts` : the tokens of a scope that can be built.
* `Token.Complete` : lists of tokens in which no operand is missing.
* `Token.matched` : lists of tokens in which parentheses match.

## Main results

* `OpenScopes.readAll_of_accepts`, `OpenScopes.readsOn_of_readAll` : reading follows the larger
  grammar.
* `Requirement.build_ok_iff_accepts` : the texts that can be built.
* `Requirement.matched_of_build` : their parentheses.
* `Requirement.generates_iff`, `Requirement.expression_iff_build_ok_complete` : the expressions
  among them.
* `Requirement.build_dangling_connective` : texts that can be built and are no expressions.
-/

namespace SeedLogic

open Requirement

/-! ### The two grammars -/

/-- The kinds of phrases: a term, and an expression whose terms a connective joins. -/
inductive Phrase where
  | term
  | expression (connective : Connective)

namespace Requirement

/-- The tokens of a phrase in which parentheses nest up to the given depth. -/
inductive Generates : Nat → Phrase → List Token → Prop
  | atom (depth : Nat) (text : String) : Generates depth .term [.atom text]
  | parentheses {depth : Nat} {connective : Connective} {tokens : List Token} :
    Generates depth (.expression connective) tokens →
      Generates (depth + 1) .term (.opening :: tokens ++ [.closing])
  | single {depth : Nat} (connective : Connective) {tokens : List Token} :
    Generates depth .term tokens → Generates depth (.expression connective) tokens
  | joined {depth : Nat} {connective : Connective} {first rest : List Token} :
    Generates depth .term first → Generates depth (.expression connective) rest →
      Generates depth (.expression connective) (first ++ connective.token :: rest)

/-- The remaining tokens of a scope with the given connective, after an operand or not, when
parentheses nest up to the given depth. A connective may stand everywhere, an operand where none
comes before it, and the scope may end everywhere. -/
inductive Accepts : Nat → Connective → Bool → List Token → Prop
  | done (depth : Nat) (connective : Connective) (afterOperand : Bool) :
    Accepts depth connective afterOperand []
  | sign {depth : Nat} {connective : Connective} (afterOperand : Bool) {rest : List Token} :
    Accepts depth connective false rest →
      Accepts depth connective afterOperand (connective.token :: rest)
  | atom {depth : Nat} {connective : Connective} (text : String) {rest : List Token} :
    Accepts depth connective true rest → Accepts depth connective false (.atom text :: rest)
  | scope {depth : Nat} {connective inner : Connective} {tokens rest : List Token} :
    Accepts depth inner false tokens → Accepts (depth + 1) connective true rest →
      Accepts (depth + 1) connective false (.opening :: tokens ++ .closing :: rest)

end Requirement

/-! ### Missing operands and parentheses -/

namespace Token

/-- Whether an operand is due after the token. -/
def expectsOperand : Token → Bool
  | .and | .or | .opening => true
  | .closing | .atom _ => false

/-- Whether an operand is due before the token. -/
def followsOperand : Token → Bool
  | .and | .or | .closing => true
  | .opening | .atom _ => false

/-- An operand is missing between the two tokens when they are neighbours. -/
def Gap (first second : Token) : Prop :=
  first.expectsOperand = true ∧ second.followsOperand = true

/-- No operand is missing between any two neighbours. -/
def Gapless (tokens : List Token) : Prop :=
  tokens.IsChain fun first second => ¬Gap first second

/-- No operand is missing in the tokens of a scope, nor at its ends. -/
def Complete (tokens : List Token) : Prop :=
  Gapless (.opening :: tokens ++ [.closing])

instance (first second : Token) : Decidable (Gap first second) :=
  inferInstanceAs (Decidable (_ ∧ _))

instance (tokens : List Token) : Decidable (Complete tokens) :=
  inferInstanceAs (Decidable (List.IsChain (fun first second => ¬Gap first second) _))

namespace Gapless

variable {first second : Token} {tokens : List Token}

theorem cons_of_not_expectsOperand (h : Gapless tokens) (hfirst : first.expectsOperand = false) :
    Gapless (first :: tokens) := by
  cases tokens with
  | nil => exact .singleton first
  | cons second tokens =>
    exact List.isChain_cons_cons.2 ⟨fun hgap => absurd (hfirst.symm.trans hgap.1) nofun, h⟩

theorem cons_of_not_followsOperand (h : Gapless (second :: tokens))
    (hsecond : second.followsOperand = false) : Gapless (first :: second :: tokens) :=
  List.isChain_cons_cons.2 ⟨fun hgap => absurd (hsecond.symm.trans hgap.2) nofun, h⟩

/-- Neighbours are no gap, and what follows the first one is gapless. -/
theorem of_cons_cons (h : Gapless (first :: second :: tokens)) :
    ¬Gap first second ∧ Gapless (second :: tokens) :=
  List.isChain_cons_cons.1 h

end Gapless

/-- Whether every parenthesis has its counterpart, when the given number of parentheses is open
before the tokens. -/
def matched : Nat → List Token → Bool
  | openings, [] => openings = 0
  | openings, .opening :: rest => matched (openings + 1) rest
  | 0, .closing :: _ => false
  | openings + 1, .closing :: rest => matched openings rest
  | openings, .and :: rest => matched openings rest
  | openings, .or :: rest => matched openings rest
  | openings, .atom _ :: rest => matched openings rest

end Token

/-! ### What can be built -/

namespace OpenScopes

variable {requirement : String} {scopes final : OpenScopes} {parts : List Part}
  {outer : List (List Part)} {placed : List PlacedToken}

private theorem afterOperand_append (parts : List Part) (part : Part) (outer : List (List Part)) :
    OpenScopes.afterOperand ⟨parts ++ [part], outer⟩ = part.isOperand := by
  simp [OpenScopes.afterOperand]

/-- The tokens of a scope that can be built are read, and leave the scopes around it as they are. -/
theorem readAll_of_accepts {depth : Nat} {connective : Connective} {afterOperand : Bool}
    {tokens : List Token} (h : Accepts depth connective afterOperand tokens)
    (hdepth : depth + outer.length = maxNesting)
    (hother : connective.other ∉ Part.connectives parts)
    (hafter : OpenScopes.afterOperand ⟨parts, outer⟩ = afterOperand)
    (hplaced : placed.map PlacedToken.token = tokens) :
    ∃ parts', readAll requirement ⟨parts, outer⟩ placed = .ok ⟨parts', outer⟩ := by
  induction h generalizing parts outer placed with
  | done depth connective afterOperand =>
    obtain rfl := List.map_eq_nil_iff.1 hplaced
    exact ⟨parts, rfl⟩
  | @sign depth connective afterOperand rest _ ih =>
    obtain ⟨⟨token, position⟩, others, rfl, htoken, hothers⟩ := List.map_eq_cons_iff.1 hplaced
    obtain rfl : token = connective.token := htoken
    rw [readAll_sign hother]
    exact ih hdepth (Part.other_notMem_append_sign hother) (afterOperand_append _ _ _) hothers
  | @atom depth connective text rest _ ih =>
    obtain ⟨⟨token, position⟩, others, rfl, htoken, hothers⟩ := List.map_eq_cons_iff.1 hplaced
    obtain rfl : token = .atom text := htoken
    have hfits : fault? requirement ⟨parts, outer⟩ ⟨.atom text, position⟩ = none := by
      simp [fault?, hafter]
    rw [readAll_of_fits hfits]
    change ∃ parts', readAll requirement ⟨parts ++ [.atom text], outer⟩ others = .ok ⟨parts', outer⟩
    refine ih hdepth ?_ (afterOperand_append _ _ _) hothers
    rwa [Part.connectives_append_operand parts (by rfl)]
  | @scope depth connective inner tokens rest _ _ ihInner ihRest =>
    obtain ⟨front, back, rfl, hfront, hback⟩ := List.map_eq_append_iff.1 hplaced
    obtain ⟨⟨token, position⟩, between, rfl, htoken, hbetween⟩ := List.map_eq_cons_iff.1 hfront
    obtain ⟨⟨token', position'⟩, others, rfl, htoken', hothers⟩ := List.map_eq_cons_iff.1 hback
    obtain rfl : token = .opening := htoken
    obtain rfl : token' = .closing := htoken'
    have hfits : fault? requirement ⟨parts, outer⟩ ⟨.opening, position⟩ = none := by
      have hroom : ¬maxNesting ≤ outer.length := by omega
      simp [fault?, hafter, hroom]
    obtain ⟨parts', hinner⟩ : ∃ parts', readAll requirement ⟨[], parts :: outer⟩ between =
        .ok ⟨parts', parts :: outer⟩ :=
      ihInner (by rw [List.length_cons]; omega) (by simp [Part.connectives]) rfl hbetween
    have hclosing : fault? requirement ⟨parts', parts :: outer⟩ ⟨.closing, position'⟩ = none := by
      simp [fault?]
    rw [List.cons_append, readAll_of_fits hfits]
    rw [readAll_append_of_ok (show (read ⟨parts, outer⟩ .opening).readAll requirement between = _
      from hinner), readAll_of_fits hclosing]
    change ∃ parts'', readAll requirement ⟨parts ++ [.scope parts'], outer⟩ others =
      .ok ⟨parts'', outer⟩
    refine ihRest hdepth ?_ (afterOperand_append _ _ _) hothers
    rwa [Part.connectives_append_operand parts (by rfl)]

/-- The tokens close the given scopes, which hold these connectives so far, innermost first. What
they add to each scope can be built in it. -/
def ReadsOn (seen : List Connective) (afterOperand : Bool) :
    List (List Connective) → List Token → Prop
  | [], tokens =>
    ∃ connective, connective.other ∉ seen ∧ Accepts maxNesting connective afterOperand tokens
  | enclosing :: outer, tokens =>
    ∃ connective inner rest, connective.other ∉ seen ∧
      Accepts (maxNesting - (outer.length + 1)) connective afterOperand inner ∧
      tokens = inner ++ .closing :: rest ∧ ReadsOn enclosing true outer rest

/-- More tokens may come before those that close the scopes, provided that they can be built
there. -/
theorem ReadsOn.prepend {seen seen' : List Connective} {afterOperand afterOperand' : Bool}
    {outer : List (List Connective)} {tokens : List Token} (front : List Token)
    (h : ReadsOn seen afterOperand outer tokens)
    (hfront : ∀ connective inner, connective.other ∉ seen →
      Accepts (maxNesting - outer.length) connective afterOperand inner →
        connective.other ∉ seen' ∧
          Accepts (maxNesting - outer.length) connective afterOperand' (front ++ inner)) :
    ReadsOn seen' afterOperand' outer (front ++ tokens) := by
  cases outer with
  | nil =>
    obtain ⟨connective, hother, haccepts⟩ := h
    exact ⟨connective, hfront connective tokens hother haccepts⟩
  | cons enclosing outer =>
    obtain ⟨connective, inner, rest, hother, haccepts, rfl, hrest⟩ := h
    obtain ⟨hother', haccepts'⟩ := hfront connective inner hother haccepts
    exact ⟨connective, front ++ inner, rest, hother', haccepts', by rw [List.append_assoc], hrest⟩

section ReadsOn

variable {seen : List Connective} {outer : List (List Connective)} {tokens : List Token}

private theorem ReadsOn.sign {connective : Connective} (afterOperand : Bool)
    (h : ReadsOn (seen ++ [connective]) false outer tokens) :
    ReadsOn seen afterOperand outer (connective.token :: tokens) := by
  refine h.prepend [connective.token] fun joining inner hother haccepts => ?_
  obtain rfl : joining = connective := by
    cases joining <;> cases connective <;> simp_all [Connective.other]
  exact ⟨fun hmem => hother (List.mem_append_left _ hmem), .sign _ haccepts⟩

private theorem ReadsOn.atom (text : String) (h : ReadsOn seen true outer tokens) :
    ReadsOn seen false outer (.atom text :: tokens) :=
  h.prepend [.atom text] fun _ _ hother haccepts => ⟨hother, .atom text haccepts⟩

private theorem ReadsOn.opening (h : ReadsOn [] false (seen :: outer) tokens)
    (hroom : outer.length < maxNesting) : ReadsOn seen false outer (.opening :: tokens) := by
  obtain ⟨connective, inner, rest, -, hinner, rfl, hrest⟩ := h
  have hdepth : maxNesting - outer.length = maxNesting - (outer.length + 1) + 1 := by omega
  have hscope : ReadsOn seen false outer ((.opening :: inner ++ [.closing]) ++ rest) :=
    hrest.prepend _ fun joining rest hother haccepts => by
      rw [hdepth] at haccepts ⊢
      exact ⟨hother, by simpa using Accepts.scope hinner haccepts⟩
  simpa using hscope

private theorem ReadsOn.closing {enclosing : List Connective} (afterOperand : Bool)
    (h : ReadsOn enclosing true outer tokens)
    (hseen : ∃ connective : Connective, connective.other ∉ seen) :
    ReadsOn seen afterOperand (enclosing :: outer) (.closing :: tokens) := by
  obtain ⟨connective, hother⟩ := hseen
  exact ⟨connective, [], tokens, hother, .done _ _ _, rfl, h⟩

end ReadsOn

/-- In a uniform scope one of the connectives does not occur. -/
private theorem Uniform.exists_other_notMem (h : scopes.Uniform) :
    ∃ connective : Connective, connective.other ∉ Part.connectives scopes.innermost := by
  by_cases hor : .or ∈ Part.connectives scopes.innermost
  · exact ⟨.or, fun hand => h _ List.mem_cons_self hand hor⟩
  · exact ⟨.and, hor⟩

/-- Tokens that are all read, and after which no scope is open, can be built in the scopes in which
they are read. -/
theorem readsOn_of_readAll (h : scopes.readAll requirement placed = .ok final)
    (hfinal : final.outer = []) (huniform : scopes.Uniform) :
    ReadsOn (Part.connectives scopes.innermost) scopes.afterOperand
      (scopes.outer.map Part.connectives) (placed.map PlacedToken.token) := by
  -- Induction on the tokens: the first one leaves fewer to the scopes after it.
  induction placed generalizing scopes with
  | nil =>
    obtain rfl := Except.ok.inj h
    obtain ⟨connective, hother⟩ := huniform.exists_other_notMem
    rw [hfinal]
    exact ⟨connective, hother, .done _ _ _⟩
  | cons first others ih =>
    cases hfits : scopes.fault? requirement first with
    | some e => exact absurd ((readAll_of_fault hfits).symm.trans h) nofun
    | none =>
      rw [readAll_of_fits hfits] at h
      have hrest := ih h (huniform.read hfits)
      obtain ⟨token, position⟩ := first
      obtain ⟨innermost, outer⟩ := scopes
      cases token using Token.connectiveCases with
      | connective connective =>
        simp only [read_connective, add, Part.connectives_append_sign, afterOperand_append] at hrest
        exact hrest.sign _
      | atom text =>
        have hafter : OpenScopes.afterOperand ⟨innermost, outer⟩ = false := by
          simpa [fault?] using hfits
        have hoperand : (Part.atom text).isOperand = true := rfl
        simp only [read, add, Part.connectives_append_operand innermost hoperand,
          afterOperand_append] at hrest
        rw [hafter]
        exact hrest.atom text
      | opening =>
        have hafter : OpenScopes.afterOperand ⟨innermost, outer⟩ = false :=
          Bool.eq_false_iff.2 fun hafter => by simp [fault?, hafter] at hfits
        have hroom : outer.length < maxNesting :=
          Nat.lt_of_not_le fun hfull => by simp [fault?, hafter, hfull] at hfits
        rw [hafter]
        exact hrest.opening (by rwa [List.length_map])
      | closing =>
        cases outer with
        | nil => exact absurd hfits (by simp [fault?])
        | cons enclosing outer =>
          have hoperand : (Part.scope innermost).isOperand = true := rfl
          simp only [read, Part.connectives_append_operand enclosing hoperand,
            afterOperand_append] at hrest
          exact hrest.closing _ huniform.exists_other_notMem

end OpenScopes

namespace Requirement

/-- A text can be built exactly when its tokens can be built as one scope. -/
theorem build_ok_iff_accepts (requirement : String) :
    (∃ r, build requirement = .ok r) ↔
      ∃ connective, Accepts maxNesting connective false
        ((Token.tokenize requirement).map PlacedToken.token) := by
  rw [OpenScopes.build_eq_readAll]
  constructor
  · rintro ⟨r, hr⟩
    cases hread : OpenScopes.readAll requirement {} (Token.tokenize requirement) with
    | error e =>
      rw [hread] at hr
      cases hr
    | ok final =>
      have hclosed : final.outer = [] := Decidable.byContradiction fun hopen => by
        rw [hread, Except.bind, OpenScopes.finish, if_neg hopen] at hr
        cases hr
      obtain ⟨connective, -, haccepts⟩ :=
        OpenScopes.readsOn_of_readAll hread hclosed OpenScopes.uniform_empty
      exact ⟨connective, haccepts⟩
  · rintro ⟨connective, haccepts⟩
    obtain ⟨parts, hread⟩ : ∃ parts, OpenScopes.readAll requirement {}
        (Token.tokenize requirement) = .ok ⟨parts, []⟩ :=
      OpenScopes.readAll_of_accepts haccepts rfl (by simp [Part.connectives]) rfl rfl
    exact ⟨Part.tree parts, by rw [hread]; rfl⟩

/-! ### Parentheses -/

/-- A scope that can be built closes the parentheses that it opens. -/
private theorem Accepts.matched_append {depth : Nat} {connective : Connective}
    {afterOperand : Bool} {tokens : List Token} (h : Accepts depth connective afterOperand tokens)
    (openings : Nat) (rest : List Token) :
    Token.matched openings (tokens ++ rest) = Token.matched openings rest := by
  induction h generalizing openings rest with
  | done => rfl
  | @sign depth connective afterOperand tokens _ ih =>
    rw [List.cons_append]
    cases connective <;> simp only [Connective.token, Token.matched, ih]
  | atom text _ ih => rw [List.cons_append, Token.matched, ih]
  | scope _ _ ihinner ihrest =>
    rw [List.cons_append, List.cons_append, List.append_assoc, List.cons_append, Token.matched,
      ihinner, Token.matched, ihrest]

/-- In a text that can be built, every parenthesis has its counterpart. -/
theorem matched_of_build {requirement : String} {r : Requirement}
    (h : build requirement = .ok r) :
    Token.matched 0 ((Token.tokenize requirement).map PlacedToken.token) = true := by
  obtain ⟨connective, haccepts⟩ := (build_ok_iff_accepts requirement).1 ⟨r, h⟩
  have hmatched := haccepts.matched_append 0 []
  rwa [List.append_nil] at hmatched

/-! ### Expressions -/

variable {depth : Nat} {connective : Connective} {tokens rest : List Token}

/-- Phrases can be built: an expression as a scope, and a term before the rest of one. -/
private def AcceptsPhrase (depth : Nat) : Phrase → List Token → Prop
  | .term, tokens => ∀ connective rest, Accepts depth connective true rest →
      Accepts depth connective false (tokens ++ rest)
  | .expression connective, tokens => Accepts depth connective false tokens

private theorem acceptsPhrase_of_generates {phrase : Phrase} (h : Generates depth phrase tokens) :
    AcceptsPhrase depth phrase tokens := by
  induction h with
  | atom depth text => exact fun connective rest hrest => .atom text hrest
  | parentheses _ ih =>
    intro connective rest hrest
    simpa using Accepts.scope ih hrest
  | single connective _ ih =>
    have hall := ih connective [] (.done _ _ _)
    rwa [List.append_nil] at hall
  | joined _ _ ihFirst ihRest => exact ihFirst _ _ (.sign true ihRest)

/-- Expressions can be built. -/
theorem Generates.accepts (h : Generates depth (.expression connective) tokens) :
    Accepts depth connective false tokens :=
  acceptsPhrase_of_generates h

/-- A phrase leaves no gap, whatever stands before and after it. -/
theorem Generates.gapless {phrase : Phrase} (h : Generates depth phrase tokens)
    (previous : Token) (hrest : Token.Gapless rest) :
    Token.Gapless (previous :: tokens ++ rest) := by
  induction h generalizing previous rest with
  | atom depth text => exact (hrest.cons_of_not_expectsOperand rfl).cons_of_not_followsOperand rfl
  | @parentheses depth connective tokens _ ih =>
    have hclosing : Token.Gapless (.closing :: rest) := hrest.cons_of_not_expectsOperand rfl
    have hterm : Token.Gapless (previous :: .opening :: tokens ++ .closing :: rest) :=
      (ih .opening hclosing).cons_of_not_followsOperand rfl
    simpa using hterm
  | single connective _ ih => exact ih previous hrest
  | @joined depth connective first others _ _ ihFirst ihRest =>
    simpa using ihFirst previous (ihRest connective.token hrest)

/-- What completes an expression: all of it, or after a term nothing, or a connective and an
expression. -/
private def CompletesExpression (depth : Nat) (connective : Connective) :
    Bool → List Token → Prop
  | false, tokens => Generates depth (.expression connective) tokens
  | true, tokens => tokens = [] ∨
      ∃ rest, tokens = connective.token :: rest ∧ Generates depth (.expression connective) rest

private theorem CompletesExpression.after_term {term : List Token}
    (hterm : Generates depth .term term) (h : CompletesExpression depth connective true rest) :
    Generates depth (.expression connective) (term ++ rest) := by
  rcases h with rfl | ⟨others, rfl, hothers⟩
  · rw [List.append_nil]
    exact .single connective hterm
  · exact .joined hterm hothers

/-- What can be built and leaves no gap is an expression. -/
private theorem Accepts.completesExpression {afterOperand : Bool}
    (h : Accepts depth connective afterOperand tokens) {previous : Token}
    (hprevious : previous.expectsOperand = !afterOperand)
    (hgapless : Token.Gapless (previous :: tokens ++ [.closing])) :
    CompletesExpression depth connective afterOperand tokens := by
  induction h generalizing previous with
  | done depth connective afterOperand =>
    cases afterOperand with
    | false => exact absurd ⟨hprevious, rfl⟩ hgapless.of_cons_cons.1
    | true => exact Or.inl rfl
  | @sign depth connective afterOperand rest _ ih =>
    obtain ⟨hhead, htail⟩ := hgapless.of_cons_cons
    cases afterOperand with
    | false => exact absurd ⟨hprevious, by cases connective <;> rfl⟩ hhead
    | true => exact Or.inr ⟨rest, rfl, ih (by cases connective <;> rfl) htail⟩
  | @atom depth connective text rest _ ih =>
    exact (ih rfl hgapless.of_cons_cons.2).after_term (.atom depth text)
  | @scope depth connective inner tokens rest _ _ ihInner ihRest =>
    have hscope : Token.Gapless ((.opening :: tokens ++ [.closing]) ++ (rest ++ [.closing])) := by
      simpa using hgapless.of_cons_cons.2
    have hrest : Token.Gapless ((.opening :: tokens) ++ (.closing :: rest ++ [.closing])) := by
      simpa using hgapless.of_cons_cons.2
    have hterm := (ihInner rfl hscope.left_of_append).parentheses
    have hafter : CompletesExpression (depth + 1) connective true rest :=
      ihRest (by rfl) (show Token.Gapless (.closing :: rest ++ [.closing]) from
        hrest.right_of_append)
    have hexpression : Generates (depth + 1) (.expression connective)
        (.opening :: tokens ++ .closing :: rest) := by
      simpa using hafter.after_term hterm
    exact hexpression

/-- The expressions are what can be built without a missing operand. -/
theorem generates_iff : Generates depth (.expression connective) tokens ↔
    Accepts depth connective false tokens ∧ Token.Complete tokens :=
  ⟨fun h => ⟨h.accepts, h.gapless .opening (.singleton _)⟩,
    fun ⟨haccepts, hcomplete⟩ => haccepts.completesExpression rfl hcomplete⟩

/-- A text can be built exactly when its tokens can be built as one scope. It is an expression
exactly when it can be built and no operand is missing in it: beside a connective, or between two
parentheses. -/
theorem expression_iff_build_ok_complete (requirement : String) :
    let tokens := (Token.tokenize requirement).map PlacedToken.token
    ((∃ r, build requirement = .ok r) ↔
      ∃ connective, Accepts maxNesting connective false tokens) ∧
    ((∃ connective, Generates maxNesting (.expression connective) tokens) ↔
      (∃ r, build requirement = .ok r) ∧ Token.Complete tokens) := by
  intro tokens
  have hbuild := build_ok_iff_accepts requirement
  refine ⟨hbuild, ?_⟩
  rw [hbuild]
  constructor
  · rintro ⟨connective, hgenerates⟩
    obtain ⟨haccepts, hcomplete⟩ := generates_iff.1 hgenerates
    exact ⟨⟨connective, haccepts⟩, hcomplete⟩
  · rintro ⟨⟨connective, haccepts⟩, hcomplete⟩
    exact ⟨connective, generates_iff.2 ⟨haccepts, hcomplete⟩⟩

/-- A text whose connective lacks its second operand, and one that is an empty pair of parentheses,
can be built, although neither is an expression. -/
theorem build_dangling_connective :
    (Token.tokenize "A &").map PlacedToken.token = [.atom "A", .and] ∧
    build "A &" = .ok (.all [.leaf "A"]) ∧
    (¬∃ connective, Generates maxNesting (.expression connective) [.atom "A", .and]) ∧
    (Token.tokenize "()").map PlacedToken.token = [.opening, .closing] ∧
    build "()" = .ok (.all [.all []]) ∧
    ¬∃ connective, Generates maxNesting (.expression connective) [.opening, .closing] :=
  ⟨by decide +kernel, by decide +kernel,
    fun ⟨_, hgenerates⟩ => absurd (generates_iff.1 hgenerates).2 (by decide), by decide +kernel,
    by decide +kernel, fun ⟨_, hgenerates⟩ => absurd (generates_iff.1 hgenerates).2 (by decide)⟩

end Requirement

end SeedLogic
