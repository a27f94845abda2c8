import SeedLogic.Proofs.Requirement.Enclosing
import SeedLogic.Proofs.Requirement.Grammar
import SeedLogic.Proofs.Requirement.Places
import SeedLogic.Proofs.Session.EntranceMacros

/-!
# Macros and their texts in parentheses

A macro in a requirement text means its own text in parentheses. Its text is a text of its own when
it is expanded, and a part of one text when it is written out. So an expansion nests one level
deeper, while parentheses written out nest in those around the macro. A text with macros that can be
built can therefore be built with the macros written out, to the same tree and with the same answers
remembered on the way, unless its parentheses then nest too deep. Whatever parentheses stand in the
text of a macro, they match: they never close or open a scope of the text around it.

Nothing is assumed about the session. What it remembers is used alike by both builds, since they
expand the same atoms in the same order.

## Main definitions

* `Reproduces` : queries that succeed as another one does.

## Main results

* `reproduces_expandAtom` : expansions that may nest deeper.
* `reproduces_readToken_macroText` : the name of a macro and its text in parentheses.
* `Session.outcome_buildWith_parentheses` : texts with a macro written out.
-/

namespace SeedLogic

open Requirement Session

variable {data : GameData} {excuse : LogicError} {α : Type} {flattened : Bool}

/-! ### Reproduced results -/

/-- In sessions with the given tables, the second query succeeds with the result of the first one
and leaves the same session whenever the first one succeeds, or else fails with the given error. The
tables stay. -/
def Reproduces (data : GameData) (excuse : LogicError) (α : Type) (x : Query α)
    (y : Unit → Query α) : Prop :=
  ∀ (s t : Session) (a : α), s.data = data → s.outcome x = (.ok a, t) →
    t.data = data ∧ s.outcome (y ()) = (.ok a, t) ∨ (s.outcome (y ())).1 = .error excuse

/-- Queries with the same outcome are reproduced alike. -/
theorem Reproduces.of_outcome_eq {x x' : Query α} {y : Unit → Query α}
    (h : Reproduces data excuse α x' y)
    (heq : ∀ s : Session, s.data = data → s.outcome x = s.outcome x') :
    Reproduces data excuse α x y := by
  intro s t a hs hx
  exact h s t a hs ((heq s hs).symm.trans hx)

theorem reproduces_lenient : Lenient excuse (Reproduces data excuse) where
  pure := by
    intro α a s t b hs hx
    obtain ⟨rfl, rfl⟩ : a = b ∧ s = t := by simpa using hx
    exact Or.inl ⟨hs, rfl⟩
  throw := by
    intro α e s t a hs hx
    simp at hx
  bind := by
    intro α β x y f g hxy hfg s u b hs hx
    obtain ⟨a, t, ha, hb⟩ := exists_of_outcome_bind (congrArg Prod.fst hx)
    rw [outcome_bind_of_ok _ ha] at hx
    rcases hxy s t a hs ha with ⟨ht, hy⟩ | hy
    · rw [outcome_bind_of_ok _ hy]
      exact hfg a t u b ht hx
    · right
      rw [outcome_bind, eq_outcome_of_fst hy]
  failed := by
    intro α e y s t a hs hx
    simp at hx
  excused := by
    intro α x s t a hs hx
    exact Or.inr rfl

private theorem reproduces_related :
    Surroundings.Related (Reproduces data excuse) Surroundings.session
      fun _ => Surroundings.session where
  toSequential := reproduces_lenient.toSequential
  view := by
    intro s t a hs hx
    obtain ⟨-, rfl⟩ : s.bare = a ∧ s = t := by simpa using hx
    exact Or.inl ⟨hs, hx⟩
  report := by
    intro α operation x y hxy s t a hs hx
    rcases hxy s t a hs (outcome_of_audited hx) with ⟨ht, hy⟩ | hy
    · left
      exact ⟨ht, (outcome_audited s operation (y ())).trans (by rw [hy])⟩
    · right
      exact (fst_outcome_audited s operation (y ())).trans hy
  refuse := by
    intro atom y s t a hs hx
    simp [Surroundings.session] at hx

private theorem reproduces_remember {q : Question} {x : Query q.Answer} {y : Unit → Query q.Answer}
    (hxy : Reproduces data excuse q.Answer x y) :
    Reproduces data excuse q.Answer (remember q x) fun u => remember q (y u) := by
  intro s t a hs hx
  cases hget : s.cache.get? q with
  | some answer =>
    rw [outcome_remember_of_some _ hget] at hx ⊢
    obtain ⟨-, rfl⟩ : answer = a ∧ s = t := by simpa using hx
    exact Or.inl ⟨hs, hx⟩
  | none =>
    rw [outcome_remember_of_none _ hget] at hx ⊢
    rcases houtcome : s.outcome x with ⟨e | answer, u⟩
    · rw [houtcome] at hx
      exact absurd (congrArg Prod.fst hx) nofun
    · rw [houtcome] at hx
      rcases hxy s u answer hs houtcome with ⟨hu, hy⟩ | hy
      · rw [hy]
        obtain rfl : u.remembering q answer = t := congrArg Prod.snd hx
        exact Or.inl ⟨hu, hx⟩
      · rw [eq_outcome_of_fst hy]
        exact Or.inr rfl

/-- Expansions that may nest deeper reproduce results. -/
theorem reproduces_expandAtom (depth : Nat) :
    ∀ depth', depth ≤ depth' → ∀ flattened atom,
      Reproduces data excuse Requirement (expandAtom depth flattened atom) fun _ =>
        expandAtom depth' flattened atom := by
  simp only [← Surroundings.expand_session]
  induction depth with
  | zero =>
    intro depth' _ flattened atom
    exact reproduces_related.expand_zero (fun _ => depth') flattened atom
  | succ depth ih =>
    intro depth' hle flattened atom
    obtain ⟨depth', rfl⟩ : ∃ d, depth' = d + 1 := ⟨depth' - 1, by omega⟩
    exact reproduces_related.expand_succ (ih depth' (by omega))
      (fun _ => reproduces_remember) flattened atom

/-! ### Macros -/

variable {name text requirement requirement' : String} {depth : Nat}

/-- The name of a macro does what its text does in parentheses, which may nest too deep. -/
theorem reproduces_readToken_macroText (hdefined : data.macroText? name = some text)
    {tokens : List PlacedToken}
    (htokens : (Token.tokenize text).map PlacedToken.token = tokens.map PlacedToken.token)
    (position start stop : Nat) (scope : Scope) (outer : List Scope) :
    Reproduces data (.nestingTooDeep requirement' maxNesting) (Scope × List Scope)
      (readToken requirement (expandAtom depth flattened) (scope, outer) ⟨.atom name, position⟩)
      fun _ => (PlacedToken.mk .opening start :: tokens ++ [PlacedToken.mk .closing stop]).foldlM
        (readToken requirement' (expandAtom depth flattened)) (scope, outer) := by
  by_cases hoperand : scope.afterOperand = true
  · simp only [readToken, if_pos hoperand]
    exact reproduces_lenient.failed _ _
  simp only [readToken, if_neg hoperand]
  cases depth with
  | zero =>
    -- An expansion that may not nest any deeper is refused.
    refine Reproduces.of_outcome_eq
      (reproduces_lenient.failed (.nestingTooDeep name maxExpansionDepth) _) fun s hs => ?_
    obtain rfl : s.data = data := hs
    rw [outcome_bind, outcome_expandAtom_zero, expansion_of_macroText? hdefined, outcome_throw]
  | succ depth =>
    have hnext (operand : Requirement) :
        Reproduces data (.nestingTooDeep requirement' maxNesting) (Scope × List Scope)
          (pure (scope.push operand, outer)) fun _ => pure (scope.push operand, outer) :=
      reproduces_lenient.pure _
    have hwritten := reproduces_lenient.enclosed
      (fun atom => reproduces_expandAtom depth (depth + 1) (Nat.le_succ depth) flattened atom)
      (Bool.eq_false_iff.2 hoperand) hnext htokens start stop
    simp only [bind_pure] at hwritten
    refine hwritten.of_outcome_eq fun s hs => ?_
    obtain rfl : s.data = data := hs
    rw [outcome_bind, outcome_bind, outcome_expandAtom_of_macroText hdefined]

namespace Session

variable {s t : Session} {r : Requirement}

/-- An atom of a text that is built has been expanded in a session with the same tables. -/
theorem exists_expanded_of_buildWith {atom : String} {place : Nat}
    (hatom : ⟨.atom atom, place⟩ ∈ Token.tokenize requirement)
    (h : (s.outcome (buildWith (expandAtom depth flattened) requirement)).1 = .ok r) :
    ∃ (t : Session) (operand : Requirement), t.data = s.data ∧
      (t.outcome (expandAtom depth flattened atom)).1 = .ok operand := by
  obtain ⟨before, after, htokens⟩ := List.append_of_mem hatom
  simp only [buildWith, readTokens_eq_foldlM, htokens, List.foldlM_append, List.foldlM_cons,
    bind_assoc] at h
  obtain ⟨⟨scope, outer⟩, t, hbefore, hrest⟩ := exists_of_outcome_bind h
  obtain ⟨_, _, hread, _⟩ := exists_of_outcome_bind hrest
  have hdata : t.data = s.data := by
    have hsame : Reproduces s.data (.nestingTooDeep requirement maxNesting) (Scope × List Scope)
        (before.foldlM (readToken requirement (expandAtom depth flattened)) ({}, []) >>= pure)
        fun _ => before.foldlM (readToken requirement (expandAtom depth flattened)) ({}, []) >>=
          pure :=
      reproduces_lenient.foldlM_alike
        (fun atom => reproduces_expandAtom depth depth (Nat.le_refl depth) flattened atom)
        (fun scope outer => reproduces_lenient.pure (scope, outer)) rfl {} []
    simp only [bind_pure] at hsame
    rcases hsame s t (scope, outer) rfl hbefore with ⟨hdata, -⟩ | hfails
    · exact hdata
    · rw [hbefore] at hfails
      cases hfails
  by_cases hoperand : scope.afterOperand = true
  · rw [readToken, if_pos hoperand, outcome_throw] at hread
    cases hread
  · rw [readToken, if_neg hoperand] at hread
    obtain ⟨operand, _, hexpanded, _⟩ := exists_of_outcome_bind (congrArg Prod.fst hread)
    exact ⟨t, operand, hdata, congrArg Prod.fst hexpanded⟩

/-- The text of a macro that can be expanded can be built on its own. -/
theorem exists_build_of_expandAtom (hdefined : s.data.macroText? name = some text)
    (h : (s.outcome (expandAtom depth flattened name)).1 = .ok r) :
    ∃ literal, build text = .ok literal := by
  cases depth with
  | zero =>
    rw [outcome_expandAtom_zero, expansion_of_macroText? hdefined] at h
    cases h
  | succ depth =>
    rw [outcome_expandAtom_of_macroText hdefined] at h
    rcases build_verdict text with ⟨literal, hbuild, -⟩ | ⟨e, stopped, -, hfails⟩
    · exact ⟨literal, hbuild⟩
    · rw [hfails] at h
      obtain ⟨_, _, _, hthrow⟩ := exists_of_outcome_bind h
      cases hthrow

/-- Take a text in which the name of a macro is an atom, and write the text of the macro in
parentheses in its place. If the text can be built, then in the same session the new one gives the
same tree and leaves the same session, unless its parentheses nest too deep. The parentheses in the
text of the macro match, so they neither close nor open a scope of the text around it. -/
theorem outcome_buildWith_parentheses (s : Session) (depth : Nat) (flattened : Bool)
    {before name after text : String}
    (hatom : ⟨.atom name, Text.byteLength before.toList⟩ ∈
      Token.tokenize (before ++ name ++ after))
    (hdefined : s.data.macroText? name = some text)
    (hbuilt : s.outcome (buildWith (expandAtom depth flattened) (before ++ name ++ after)) =
      (.ok r, t)) :
    let written := before ++ "(" ++ text ++ ")" ++ after
    (s.outcome (buildWith (expandAtom depth flattened) written) = (.ok r, t) ∨
      (s.outcome (buildWith (expandAtom depth flattened) written)).1 =
        .error (.nestingTooDeep written maxNesting)) ∧
    Token.matched 0 ((Token.tokenize text).map PlacedToken.token) = true := by
  intro written
  constructor
  · obtain ⟨first, last, place, htokens, hfirst, hlast⟩ := Token.exists_tokens_of_mem hatom
    obtain ⟨first', inner, last', start, stop, htokens', hfirst', hinner, hlast'⟩ :=
      Token.exists_tokens_parentheses before text after
    have hreproduces : Reproduces s.data (.nestingTooDeep written maxNesting) Requirement
        (buildWith (expandAtom depth flattened) (before ++ name ++ after))
        fun _ => buildWith (expandAtom depth flattened) written :=
      reproduces_lenient.buildWith_replace
        (fun atom => reproduces_expandAtom depth depth (Nat.le_refl depth) flattened atom)
        htokens htokens' (hfirst.trans hfirst'.symm) (hlast.trans hlast'.symm)
        (reproduces_readToken_macroText hdefined hinner.symm place start stop)
    exact (hreproduces s t r rfl hbuilt).imp_left And.right
  · obtain ⟨u, operand, hdata, hexpanded⟩ :=
      exists_expanded_of_buildWith hatom (congrArg Prod.fst hbuilt)
    obtain ⟨literal, hbuild⟩ := exists_build_of_expandAtom (hdata ▸ hdefined) hexpanded
    exact matched_of_build hbuild

/-- The way into the keep between a sword and a bow. -/
theorem outcome_buildWith_parentheses_keep :
    let s := initial {} keep
    let way := "Lantern | Option \"open_keep\" Enabled"
    let tree := join .and [.leaf "Sword", join .or [.leaf "Lantern", .impossible], .leaf "Bow"]
    ⟨.atom "Can Enter Keep", Text.byteLength "Sword & ".toList⟩ ∈
      Token.tokenize ("Sword & " ++ "Can Enter Keep" ++ " & Bow") ∧
    s.data.macroText? "Can Enter Keep" = some way ∧
    (s.outcome (rawTree ("Sword & " ++ "Can Enter Keep" ++ " & Bow") false)).1 = .ok tree ∧
    (s.outcome (rawTree ("Sword & " ++ "(" ++ way ++ ")" ++ " & Bow") false)).1 = .ok tree ∧
    Token.matched 0 ((Token.tokenize way).map PlacedToken.token) = true := by
  intro s way tree
  have hatom : ⟨.atom "Can Enter Keep", Text.byteLength "Sword & ".toList⟩ ∈
      Token.tokenize ("Sword & " ++ "Can Enter Keep" ++ " & Bow") := by decide +kernel
  have hdefined : s.data.macroText? "Can Enter Keep" = some way := by decide +kernel
  have hbuilt : (s.outcome (rawTree ("Sword & " ++ "Can Enter Keep" ++ " & Bow") false)).1 =
      .ok tree := by decide +kernel
  obtain ⟨hwritten, hmatched⟩ := outcome_buildWith_parentheses s maxExpansionDepth false hatom
    hdefined (eq_outcome_of_fst hbuilt)
  refine ⟨hatom, hdefined, hbuilt, ?_, hmatched⟩
  exact congrArg Prod.fst (hwritten.resolve_right (by decide +kernel))

/-- In as many parentheses as may nest, a macro can still be expanded but no longer written out. -/
example :
    let s := initial {} keep
    let before := String.ofList (List.replicate maxNesting '(')
    let after := String.ofList (List.replicate maxNesting ')')
    let written := before ++ "(" ++ "Lantern | Option \"open_keep\" Enabled" ++ ")" ++ after
    (s.outcome (rawTree (before ++ "Can Enter Keep" ++ after) false)).1.isOk = true ∧
      (s.outcome (rawTree written false)).1 = .error (.nestingTooDeep written maxNesting) := by
  decide +kernel

end Session

end SeedLogic
