import SeedLogic.Proofs.Requirement.Descent
import SeedLogic.Proofs.Requirement.Scan

/-!
# The first offending token

A token of a requirement text is offending when it does not fit the scopes that are open before it,
or when it is an atom whose expansion fails. A build fails exactly when there is an offending token
or a scope is left open. It fails with the error of the first offending token, after expanding the
connected atoms up to that token, once each and in their order. Otherwise its result is the tree of
the text with the expansions in place of the atoms. All this is said of recursive descent and shown
of the stack of open scopes, which builds the same.

The expansion of atoms may depend on a state and change it. A record of its calls is one such
state.

## Main definitions

* `OpenScopes.after` : the scopes that are open after some tokens.
* `OpenScopes.connectedAtoms` : the atoms that do not directly follow an operand of their scope.
* `expandedAtoms` : the atoms that a build expands, in the order of the calls.
* `Offends`, `Sound` : offending tokens, and texts without one.

## Main results

* `Reads.read` : a token that fits is read by every build.
* `descend_fails_at_first_offence` : builds stop at the first offending token.
-/

namespace SeedLogic

open Requirement

/-! ### Tokens before a place of a text -/

namespace OpenScopes

/-- The scopes that are open after some tokens. -/
def after (tokens : List PlacedToken) : OpenScopes :=
  tokens.foldl (fun scopes placed => scopes.read placed.token) {}

/-- The atom that a token is, unless it directly follows an operand of its scope. -/
def connectedAtom? (scopes : OpenScopes) (placed : PlacedToken) : Option String :=
  match placed.token with
  | .atom text => if scopes.afterOperand then none else some text
  | _ => none

/-- The atoms among some tokens that do not directly follow an operand of their scope, when the
given scopes are open before them. -/
def connectedAtoms (scopes : OpenScopes) : List PlacedToken → List String
  | [] => []
  | placed :: rest =>
    (scopes.connectedAtom? placed).toList ++ (scopes.read placed.token).connectedAtoms rest

/-- The atoms read so far. -/
def atoms (scopes : OpenScopes) : List String :=
  (scopes.outer.reverse.flatMap fun parts => (Part.operandsList parts).flatMap leaves) ++
    (Part.operandsList scopes.innermost).flatMap leaves

variable {requirement : String} {scopes : OpenScopes} {placed : PlacedToken}

theorem after_append_singleton (tokens : List PlacedToken) (placed : PlacedToken) :
    after (tokens ++ [placed]) = (after tokens).read placed.token := by
  rw [after, List.foldl_append]
  rfl

private theorem connectedAtoms_append (tokens others : List PlacedToken) (scopes : OpenScopes) :
    scopes.connectedAtoms (tokens ++ others) = scopes.connectedAtoms tokens ++
      (tokens.foldl (fun scopes placed => scopes.read placed.token) scopes).connectedAtoms
        others := by
  induction tokens generalizing scopes with
  | nil => rfl
  | cons placed tokens ih =>
    rw [List.cons_append, connectedAtoms, connectedAtoms, ih, List.append_assoc]
    rfl

/-- A token adds the atom that it is, if it is connected. -/
theorem connectedAtoms_append_singleton (tokens : List PlacedToken) (placed : PlacedToken) :
    connectedAtoms {} (tokens ++ [placed]) =
      connectedAtoms {} tokens ++ ((after tokens).connectedAtom? placed).toList := by
  rw [connectedAtoms_append]
  simp [connectedAtoms, after]

/-- A token that does not fit is no connected atom. -/
theorem connectedAtom?_of_fault {e : LogicError}
    (h : scopes.fault? requirement placed = some e) : scopes.connectedAtom? placed = none := by
  obtain ⟨token, position⟩ := placed
  cases token with
  | atom text =>
    obtain ⟨hafter, -⟩ : scopes.afterOperand = true ∧
        .missingConnective requirement position = e := by
      simpa [fault?] using h
    simp [connectedAtom?, hafter]
  | _ => rfl

/-- A connected atom fits. -/
theorem fault?_of_connectedAtom {text : String} (h : scopes.connectedAtom? placed = some text) :
    scopes.fault? requirement placed = none := by
  cases hfault : scopes.fault? requirement placed with
  | none => rfl
  | some e => exact absurd (h.symm.trans (connectedAtom?_of_fault hfault)) (by simp)

private theorem atoms_add (scopes : OpenScopes) (part : Part) :
    (scopes.add part).atoms = scopes.atoms ++ part.operands.flatMap leaves := by
  have hpart : Part.operandsList [part] = part.operands := by
    rw [Part.operandsList, Part.operandsList, List.append_nil]
  rw [atoms, add, Part.operandsList_append, hpart, List.flatMap_append, atoms, List.append_assoc]

/-- Reading a token that fits adds the atom that it is. -/
theorem atoms_read (h : scopes.fault? requirement placed = none) :
    (scopes.read placed.token).atoms =
      scopes.atoms ++ (scopes.connectedAtom? placed).toList := by
  obtain ⟨token, position⟩ := placed
  cases token using Token.connectiveCases with
  | connective connective =>
    have hnone : scopes.connectedAtom? ⟨connective.token, position⟩ = none := by
      cases connective <;> rfl
    simp [read_connective, atoms_add, Part.operands, hnone]
  | atom text =>
    have hafter : scopes.afterOperand = false := by simpa [fault?] using h
    simp [read, atoms_add, Part.operands, connectedAtom?, hafter]
  | opening => simp [read, atoms, Part.operandsList, connectedAtom?]
  | closing =>
    obtain ⟨innermost, outer⟩ := scopes
    cases outer with
    | nil => exact absurd h (by simp [fault?])
    | cons enclosing outer =>
      simp [read, atoms, Part.operandsList_append, Part.operandsList, Part.operands, leaves_join,
        connectedAtom?]

section Expansion

variable {m : Type → Type} [Monad m] [LawfulMonad m]
  {expand : String → ExceptT LogicError m Requirement} {α : Type}

private theorem expandParts_bind_const (parts : List Part) (next : ExceptT LogicError m α) :
    (expandParts expand parts >>= fun _ => next) =
      (((Part.operandsList parts).flatMap leaves).mapM expand >>= fun _ => next) := by
  rw [← mapM_substM_bind_const]
  simp only [expandParts, bind_assoc, pure_bind]

private theorem expandOuter_bind_const (outer : List (List Part))
    (next : ExceptT LogicError m α) :
    (expandOuter expand outer >>= fun _ => next) =
      ((outer.reverse.flatMap fun parts => (Part.operandsList parts).flatMap leaves).mapM expand
        >>= fun _ => next) := by
  induction outer generalizing next with
  | nil => simp only [expandOuter, List.reverse_nil, List.flatMap_nil, List.mapM_nil, pure_bind]
  | cons parts outer ih =>
    simp only [expandOuter, bind_assoc, pure_bind]
    rw [ih]
    simp only [expandParts_bind_const, List.reverse_cons, List.flatMap_append, List.mapM_append,
      List.flatMap_cons, List.flatMap_nil, List.append_nil, bind_assoc, pure_bind]

/-- The scopes that a build keeps are made by expanding the atoms read so far, in their order and
once each. -/
theorem expandAll_bind_const (scopes : OpenScopes) (next : ExceptT LogicError m α) :
    (scopes.expandAll expand >>= fun _ => next) =
      (scopes.atoms.mapM expand >>= fun _ => next) := by
  simp only [expandAll, bind_assoc, pure_bind]
  rw [expandOuter_bind_const]
  simp only [expandParts_bind_const, atoms, List.mapM_append, bind_assoc, pure_bind]

end Expansion

end OpenScopes

/-! ### Outcomes -/

/-- The result of a computation that starts in a state, and the state after it. -/
def outcomeFrom {σ α : Type} (s : σ) (x : ExceptT LogicError (StateM σ) α) :
    Except LogicError α × σ :=
  Id.run (x.run.run s)

section Outcomes

variable {σ α β : Type} {s t : σ}

theorem outcomeFrom_bind (x : ExceptT LogicError (StateM σ) α)
    (next : α → ExceptT LogicError (StateM σ) β) :
    outcomeFrom s (x >>= next) =
      match outcomeFrom s x with
      | (.ok a, t) => outcomeFrom t (next a)
      | (.error e, t) => (.error e, t) := by
  have h : outcomeFrom s (x >>= next) =
      match outcomeFrom s x with
      | (result, t) => Id.run ((ExceptT.bindCont next result).run t) := rfl
  rw [h]
  rcases outcomeFrom s x with ⟨_ | _, t⟩ <;> rfl

/-- Computations that go on alike whatever their results succeed alike. -/
theorem exists_ok_of_bind_const {x : ExceptT LogicError (StateM σ) α}
    {y : ExceptT LogicError (StateM σ) β} {b : β}
    (h : (x >>= fun _ => pure ()) = (y >>= fun _ => pure ()))
    (hy : outcomeFrom s y = (.ok b, t)) : ∃ a, outcomeFrom s x = (.ok a, t) := by
  have houtcome := congrArg (outcomeFrom s) h
  rw [outcomeFrom_bind, outcomeFrom_bind, hy] at houtcome
  rcases hx : outcomeFrom s x with ⟨e | a, u⟩
  · rw [hx] at houtcome
    exact absurd (congrArg Prod.fst houtcome) nofun
  · rw [hx] at houtcome
    exact ⟨a, by rw [show u = t from congrArg Prod.snd houtcome]⟩

/-- Computations that go on alike whatever their results fail alike. -/
theorem error_of_bind_const {x : ExceptT LogicError (StateM σ) α}
    {y : ExceptT LogicError (StateM σ) β} {e : LogicError}
    (h : (x >>= fun _ => pure ()) = (y >>= fun _ => pure ()))
    (hy : outcomeFrom s y = (.error e, t)) : outcomeFrom s x = (.error e, t) := by
  have houtcome := congrArg (outcomeFrom s) h
  rw [outcomeFrom_bind, outcomeFrom_bind, hy] at houtcome
  rcases hx : outcomeFrom s x with ⟨e' | a, u⟩
  · rw [hx] at houtcome
    obtain ⟨he, rfl⟩ := Prod.mk.inj houtcome
    rw [Except.error.inj he]
  · rw [hx] at houtcome
    exact absurd (congrArg Prod.fst houtcome) nofun

/-- The last one of some atoms is expanded in the state that the others lead to. -/
theorem outcomeFrom_mapM_append_singleton
    {expand : String → ExceptT LogicError (StateM σ) Requirement} {atoms : List String}
    {results : List Requirement} (h : outcomeFrom s (atoms.mapM expand) = (.ok results, t))
    (text : String) :
    outcomeFrom s ((atoms ++ [text]).mapM expand) =
      match outcomeFrom t (expand text) with
      | (.ok operand, t') => (.ok (results ++ [operand]), t')
      | (.error e, t') => (.error e, t') := by
  rw [List.mapM_append, outcomeFrom_bind, h]
  simp only [List.mapM_cons, List.mapM_nil, bind_assoc, pure_bind]
  rw [outcomeFrom_bind]
  rcases outcomeFrom t (expand text) with ⟨_ | _, t'⟩ <;> rfl

end Outcomes

/-! ### Recorded calls -/

section Calls

variable {σ : Type}

/-- The expansion of atoms that also records for which atoms it is called, in their order. -/
def recorded (expand : String → ExceptT LogicError (StateM σ) Requirement) (atom : String) :
    ExceptT LogicError (StateM (List String × σ)) Requirement :=
  ExceptT.mk fun (calls, s) =>
    let (result, t) := outcomeFrom s (expand atom)
    (result, (calls ++ [atom], t))

/-- The atoms that a build expands, in the order of the calls. -/
def expandedAtoms (expand : String → ExceptT LogicError (StateM σ) Requirement) (s : σ)
    (requirement : String) : List String :=
  (outcomeFrom ([], s) (descend (recorded expand) requirement)).2.1

variable {expand : String → ExceptT LogicError (StateM σ) Requirement} {s t : σ}

theorem expandedAtoms_eq_buildWith (requirement : String) :
    expandedAtoms expand s requirement =
      (outcomeFrom ([], s) (buildWith (recorded expand) requirement)).2.1 := by
  rw [expandedAtoms, descend_eq_buildWith]

theorem outcomeFrom_recorded (calls : List String) {text : String}
    {result : Except LogicError Requirement} (h : outcomeFrom s (expand text) = (result, t)) :
    outcomeFrom (calls, s) (recorded expand text) = (result, (calls ++ [text], t)) := by
  have hrecorded : outcomeFrom (calls, s) (recorded expand text) =
      ((outcomeFrom s (expand text)).1, (calls ++ [text], (outcomeFrom s (expand text)).2)) := rfl
  rw [hrecorded, h]

/-- Atoms that are expanded in turn without failure are recorded in their order. -/
theorem outcomeFrom_mapM_recorded (calls : List String) {atoms : List String}
    {results : List Requirement}
    (h : outcomeFrom s (atoms.mapM expand) = (.ok results, t)) :
    outcomeFrom (calls, s) (atoms.mapM (recorded expand)) = (.ok results, (calls ++ atoms, t)) := by
  induction atoms generalizing calls s results with
  | nil =>
    obtain ⟨rfl, rfl⟩ : results = [] ∧ t = s := by
      obtain ⟨hresults, ht⟩ := Prod.mk.inj h
      exact ⟨(Except.ok.inj hresults).symm, ht.symm⟩
    rw [List.append_nil]
    rfl
  | cons text atoms ih =>
    rw [List.mapM_cons, outcomeFrom_bind] at h
    rcases hexpand : outcomeFrom s (expand text) with ⟨e | operand, u⟩
    · rw [hexpand] at h
      exact absurd (congrArg Prod.fst h) nofun
    · rw [hexpand] at h
      simp only [outcomeFrom_bind] at h
      rcases hrest : outcomeFrom u (atoms.mapM expand) with ⟨e | rest, v⟩
      · rw [hrest] at h
        exact absurd (congrArg Prod.fst h) nofun
      · rw [hrest] at h
        obtain ⟨rfl, rfl⟩ : results = operand :: rest ∧ t = v := by
          obtain ⟨hresults, ht⟩ := Prod.mk.inj h
          exact ⟨(Except.ok.inj hresults).symm, ht.symm⟩
        rw [List.mapM_cons, outcomeFrom_bind, outcomeFrom_recorded calls hexpand]
        simp only [outcomeFrom_bind]
        rw [ih _ hrest, List.append_assoc]
        rfl

end Calls

/-! ### Texts that are read -/

section Reading

/-- What reading some tokens does to a build, whatever the expansion of atoms is. -/
structure Reads (requirement : String) (tokens : List PlacedToken) : Prop where
  uniform : (OpenScopes.after tokens).Uniform
  resumes {m : Type → Type} [Monad m] [LawfulMonad m]
    (expand : String → ExceptT LogicError m Requirement) (remaining : List PlacedToken) :
    OpenScopes.resume expand requirement {} (tokens ++ remaining) =
      OpenScopes.resume expand requirement (OpenScopes.after tokens) remaining
  tokens_eq : (OpenScopes.after tokens).tokens = tokens.map PlacedToken.token
  atoms_eq : (OpenScopes.after tokens).atoms = OpenScopes.connectedAtoms {} tokens

variable {requirement : String} {tokens remaining : List PlacedToken} {placed : PlacedToken}
  {e : LogicError}

theorem reads_nil : Reads requirement [] where
  uniform := OpenScopes.uniform_empty
  resumes _ _ := rfl
  tokens_eq := rfl
  atoms_eq := rfl

/-- A token that fits is read. -/
theorem Reads.read (h : Reads requirement tokens)
    (hfits : (OpenScopes.after tokens).fault? requirement placed = none) :
    Reads requirement (tokens ++ [placed]) where
  uniform := by
    rw [OpenScopes.after_append_singleton]
    exact h.uniform.read hfits
  resumes expand remaining := by
    rw [List.append_assoc, List.singleton_append, h.resumes, OpenScopes.resume_of_fits hfits,
      OpenScopes.after_append_singleton]
  tokens_eq := by
    rw [OpenScopes.after_append_singleton, OpenScopes.tokens_read hfits, h.tokens_eq,
      List.map_append]
    rfl
  atoms_eq := by
    rw [OpenScopes.after_append_singleton, OpenScopes.atoms_read hfits, h.atoms_eq,
      OpenScopes.connectedAtoms_append_singleton]

variable {σ : Type} {expand : String → ExceptT LogicError (StateM σ) Requirement} {s t : σ}
  {results : List Requirement}

/-- What is kept while the tokens are read comes about as the expansion of their connected
atoms. -/
private theorem Reads.expandAll_bind_unit (h : Reads requirement tokens) :
    ((OpenScopes.after tokens).expandAll expand >>= fun _ => pure ()) =
      ((OpenScopes.connectedAtoms {} tokens).mapM expand >>= fun _ => pure ()) := by
  rw [OpenScopes.expandAll_bind_const, h.atoms_eq]

/-- A build fails when one of the atoms read so far is not expanded. -/
theorem Reads.outcome_of_rejected (h : Reads requirement tokens)
    (htokens : Token.tokenize requirement = tokens ++ remaining)
    (hcalls : outcomeFrom s ((OpenScopes.connectedAtoms {} tokens).mapM expand) =
      (.error e, t)) :
    outcomeFrom s (buildWith expand requirement) = (.error e, t) := by
  rw [OpenScopes.buildWith_eq_resume, htokens, h.resumes, OpenScopes.resume, outcomeFrom_bind,
    error_of_bind_const h.expandAll_bind_unit hcalls]

/-- A build fails when the next token does not fit. -/
theorem Reads.outcome_of_fault (h : Reads requirement tokens)
    (htokens : Token.tokenize requirement = tokens ++ placed :: remaining)
    (hfault : (OpenScopes.after tokens).fault? requirement placed = some e)
    (hcalls : outcomeFrom s ((OpenScopes.connectedAtoms {} tokens).mapM expand) =
      (.ok results, t)) :
    outcomeFrom s (buildWith expand requirement) = (.error e, t) := by
  obtain ⟨kept, hkept⟩ := exists_ok_of_bind_const h.expandAll_bind_unit hcalls
  rw [OpenScopes.buildWith_eq_resume, htokens, h.resumes,
    OpenScopes.resume_of_fault h.uniform hfault, outcomeFrom_bind, hkept]
  rfl

/-- A build fails when a scope is open at the end. -/
theorem Reads.outcome_of_open (h : Reads requirement (Token.tokenize requirement))
    (hopen : (OpenScopes.after (Token.tokenize requirement)).outer ≠ [])
    (hcalls : outcomeFrom s
      ((OpenScopes.connectedAtoms {} (Token.tokenize requirement)).mapM expand) =
        (.ok results, t)) :
    outcomeFrom s (buildWith expand requirement) =
      (.error (.unbalancedParentheses requirement requirement.utf8ByteSize), t) := by
  obtain ⟨kept, hkept⟩ := exists_ok_of_bind_const h.expandAll_bind_unit hcalls
  have hresumes := h.resumes expand []
  rw [List.append_nil] at hresumes
  rw [OpenScopes.buildWith_eq_resume, hresumes, OpenScopes.resume_nil_of_open hopen,
    outcomeFrom_bind, hkept]
  rfl

/-- A text with all scopes closed is built by substitution into its tree. -/
theorem Reads.buildWith_of_closed (h : Reads requirement (Token.tokenize requirement))
    (hclosed : (OpenScopes.after (Token.tokenize requirement)).outer = []) :
    buildWith expand requirement =
      (Part.tree (OpenScopes.after (Token.tokenize requirement)).innermost).substM expand := by
  have hresumes := h.resumes expand []
  rw [List.append_nil] at hresumes
  rw [OpenScopes.buildWith_eq_resume, hresumes, OpenScopes.resume_nil_of_closed hclosed]

/-- A build succeeds when every atom is expanded and no scope is open at the end. -/
theorem Reads.outcome_of_closed (h : Reads requirement (Token.tokenize requirement))
    (hclosed : (OpenScopes.after (Token.tokenize requirement)).outer = [])
    (hcalls : outcomeFrom s
      ((OpenScopes.connectedAtoms {} (Token.tokenize requirement)).mapM expand) =
        (.ok results, t)) :
    ∃ r, outcomeFrom s (buildWith expand requirement) = (.ok r, t) := by
  rw [h.buildWith_of_closed hclosed]
  refine exists_ok_of_bind_const ?_ hcalls
  rw [substM_bind_const, ← h.atoms_eq, Part.tree, leaves_join, OpenScopes.atoms, hclosed,
    List.reverse_nil, List.flatMap_nil, List.nil_append]

end Reading

/-! ### Offending tokens -/

section Offences

variable {σ : Type} (requirement : String)
  (expand : String → ExceptT LogicError (StateM σ) Requirement) (s : σ)

/-- After the tokens before it, a token is offending with an error: it does not fit the open
scopes, or it is a connected atom that is not expanded, when the expansion of atoms starts in the
state `s`. -/
inductive Offends (before : List PlacedToken) (placed : PlacedToken) : LogicError → Prop
  | fault {e : LogicError} (h : (OpenScopes.after before).fault? requirement placed = some e) :
      Offends before placed e
  | rejected {text : String} {results : List Requirement} {t t' : σ} {e : LogicError}
      (hconnected : (OpenScopes.after before).connectedAtom? placed = some text)
      (hbefore : outcomeFrom s ((OpenScopes.connectedAtoms {} before).mapM expand) =
        (.ok results, t))
      (hexpand : outcomeFrom t (expand text) = (.error e, t')) : Offends before placed e

/-- No token is offending. -/
def Sound (tokens : List PlacedToken) : Prop :=
  ∀ before placed after e, tokens = before ++ placed :: after →
    ¬Offends requirement expand s before placed e

variable {requirement expand s} {before remaining : List PlacedToken} {placed : PlacedToken}
  {t : σ} {e : LogicError}

/-- A token that is not offending fits. -/
theorem fault?_eq_none (h : ∀ e, ¬Offends requirement expand s before placed e) :
    (OpenScopes.after before).fault? requirement placed = none := by
  cases hfault : (OpenScopes.after before).fault? requirement placed with
  | none => rfl
  | some e => exact absurd (.fault hfault) (h e)

/-- A token that is not offending is expanded if it is a connected atom. -/
theorem exists_ok_append_singleton (h : ∀ e, ¬Offends requirement expand s before placed e)
    {results : List Requirement}
    (hcalls : outcomeFrom s ((OpenScopes.connectedAtoms {} before).mapM expand) =
      (.ok results, t)) :
    ∃ results' t', outcomeFrom s
      ((OpenScopes.connectedAtoms {} (before ++ [placed])).mapM expand) = (.ok results', t') := by
  rw [OpenScopes.connectedAtoms_append_singleton]
  cases hconnected : (OpenScopes.after before).connectedAtom? placed with
  | none => exact ⟨results, t, by rw [Option.toList_none, List.append_nil, hcalls]⟩
  | some text =>
    rcases hexpand : outcomeFrom t (expand text) with ⟨e | operand, t'⟩
    · exact absurd (.rejected hconnected hcalls hexpand) (h e)
    · refine ⟨results ++ [operand], t', ?_⟩
      rw [Option.toList_some, outcomeFrom_mapM_append_singleton hcalls, hexpand]

/-- Tokens of which none is offending are read, and their connected atoms are expanded. -/
theorem Sound.reads {tokens : List PlacedToken} (h : Sound requirement expand s tokens) :
    Reads requirement tokens ∧ ∃ results t,
      outcomeFrom s ((OpenScopes.connectedAtoms {} tokens).mapM expand) = (.ok results, t) := by
  -- The tokens are read from the left, so the induction is on those that remain.
  suffices hread : ∀ remaining before, before ++ remaining = tokens →
      (Reads requirement before ∧ ∃ results t,
        outcomeFrom s ((OpenScopes.connectedAtoms {} before).mapM expand) = (.ok results, t)) →
      Reads requirement tokens ∧ ∃ results t,
        outcomeFrom s ((OpenScopes.connectedAtoms {} tokens).mapM expand) = (.ok results, t) from
    hread tokens [] rfl ⟨reads_nil, [], s, rfl⟩
  intro remaining
  induction remaining with
  | nil =>
    rintro before rfl hbefore
    rwa [List.append_nil]
  | cons placed remaining ih =>
    rintro before htokens ⟨hreads, results, t, hcalls⟩
    have hplaced (e : LogicError) : ¬Offends requirement expand s before placed e :=
      h before placed remaining e htokens.symm
    refine ih (before ++ [placed]) (by rw [← htokens]; simp) ⟨?_, ?_⟩
    · exact hreads.read (fault?_eq_none hplaced)
    · exact exists_ok_append_singleton hplaced hcalls

/-- Tokens of which one is offending are cut at it. -/
theorem exists_offends_of_not_sound {tokens : List PlacedToken}
    (h : ¬Sound requirement expand s tokens) :
    ∃ before placed remaining e, tokens = before ++ placed :: remaining ∧
      Offends requirement expand s before placed e := by
  simpa only [Sound, Classical.not_forall, Classical.not_not, exists_prop] using h

/-- When a token is offending, there is a first one. -/
theorem exists_first_offence (after : List PlacedToken) {e : LogicError}
    (h : Offends requirement expand s before placed e) :
    ∃ front placed' back e', before ++ placed :: after = front ++ placed' :: back ∧
      Sound requirement expand s front ∧ Offends requirement expand s front placed' e' := by
  induction hlength : before.length using Nat.strongRecOn generalizing before placed after e with
  | ind n ih =>
    by_cases hsound : Sound requirement expand s before
    · exact ⟨before, placed, after, e, rfl, hsound, h⟩
    · obtain ⟨front, earlier, between, e', rfl, hearlier⟩ := exists_offends_of_not_sound hsound
      have hshorter : front.length < n := by
        rw [← hlength]
        simp
      obtain ⟨first, placed', back, e'', htokens, hfirst⟩ :=
        ih front.length hshorter (between ++ placed :: after) hearlier rfl
      exact ⟨first, placed', back, e'', by rw [← htokens]; simp, hfirst⟩

/-- A build fails at its first offending token, and the atoms up to that token are expanded. -/
theorem Sound.outcome_of_offends (h : Sound requirement expand s before)
    (htokens : Token.tokenize requirement = before ++ placed :: remaining)
    (hoffends : Offends requirement expand s before placed e) :
    (outcomeFrom s (buildWith expand requirement)).1 = .error e ∧
      expandedAtoms expand s requirement =
        OpenScopes.connectedAtoms {} (before ++ [placed]) := by
  obtain ⟨hreads, results, t, hcalls⟩ := h.reads
  cases hoffends with
  | fault hfault =>
    have hrecorded := outcomeFrom_mapM_recorded [] hcalls
    rw [hreads.outcome_of_fault htokens hfault hcalls, expandedAtoms_eq_buildWith,
      hreads.outcome_of_fault htokens hfault hrecorded,
      OpenScopes.connectedAtoms_append_singleton, OpenScopes.connectedAtom?_of_fault hfault]
    simp
  | @rejected text results t t' _ hconnected hcalls hexpand =>
    have hatoms : OpenScopes.connectedAtoms {} (before ++ [placed]) =
        OpenScopes.connectedAtoms {} before ++ [text] := by
      rw [OpenScopes.connectedAtoms_append_singleton, hconnected]
      rfl
    have hread : Reads requirement (before ++ [placed]) :=
      hreads.read (OpenScopes.fault?_of_connectedAtom hconnected)
    have hsplit : Token.tokenize requirement = before ++ [placed] ++ remaining := by
      rw [htokens, List.append_assoc, List.singleton_append]
    have hfailed : outcomeFrom s ((OpenScopes.connectedAtoms {} (before ++ [placed])).mapM expand) =
        (.error e, t') := by
      rw [hatoms, outcomeFrom_mapM_append_singleton hcalls, hexpand]
    have hrecorded : outcomeFrom ([], s)
        ((OpenScopes.connectedAtoms {} (before ++ [placed])).mapM (recorded expand)) =
          (.error e, (OpenScopes.connectedAtoms {} (before ++ [placed]), t')) := by
      rw [hatoms, outcomeFrom_mapM_append_singleton (outcomeFrom_mapM_recorded [] hcalls),
        outcomeFrom_recorded _ hexpand]
      rfl
    rw [hread.outcome_of_rejected hsplit hfailed, expandedAtoms_eq_buildWith,
      hread.outcome_of_rejected hsplit hrecorded]
    exact ⟨rfl, rfl⟩

/-- In a text without an offending token all connected atoms are expanded. -/
theorem Sound.expandedAtoms_eq (h : Sound requirement expand s (Token.tokenize requirement)) :
    expandedAtoms expand s requirement =
      OpenScopes.connectedAtoms {} (Token.tokenize requirement) := by
  obtain ⟨hreads, results, t, hcalls⟩ := h.reads
  have hrecorded := outcomeFrom_mapM_recorded [] hcalls
  by_cases hclosed : (OpenScopes.after (Token.tokenize requirement)).outer = []
  · obtain ⟨r, hr⟩ := hreads.outcome_of_closed hclosed hrecorded
    rw [expandedAtoms_eq_buildWith, hr]
    rfl
  · rw [expandedAtoms_eq_buildWith, hreads.outcome_of_open hclosed hrecorded]
    rfl

/-- A text without an offending token whose scopes are all closed consists of the parts that have
been read, and building it is substituting the expansions for the atoms of its tree. -/
theorem Sound.built (h : Sound requirement expand s (Token.tokenize requirement))
    (hclosed : (OpenScopes.after (Token.tokenize requirement)).outer = []) :
    Part.tokensList (OpenScopes.after (Token.tokenize requirement)).innermost =
        (Token.tokenize requirement).map PlacedToken.token ∧
      (∃ r, (outcomeFrom s (buildWith expand requirement)).1 = .ok r) ∧
      buildWith expand requirement =
        (Part.tree (OpenScopes.after (Token.tokenize requirement)).innermost).substM expand := by
  obtain ⟨hreads, results, t, hcalls⟩ := h.reads
  refine ⟨?_, ?_, hreads.buildWith_of_closed hclosed⟩
  · rw [← hreads.tokens_eq, OpenScopes.tokens, hclosed, List.reverse_nil, List.flatMap_nil,
      List.nil_append]
  · obtain ⟨r, hr⟩ := hreads.outcome_of_closed hclosed hcalls
    exact ⟨r, by rw [hr]⟩

/-- Without an offending token a build fails when a scope is left open. -/
theorem Sound.outcome_of_open (h : Sound requirement expand s (Token.tokenize requirement))
    (hopen : (OpenScopes.after (Token.tokenize requirement)).outer ≠ []) :
    (outcomeFrom s (buildWith expand requirement)).1 =
      .error (.unbalancedParentheses requirement requirement.utf8ByteSize) := by
  obtain ⟨hreads, results, t, hcalls⟩ := h.reads
  rw [hreads.outcome_of_open hopen hcalls]

/-- Recursive descent reads as the scan with a stack of open scopes does, whatever the expansion of
atoms is, and it accepts and rejects at the first offending token. If there is one, the build fails
with its error, after it has expanded the connected atoms up to that token, once each and in their
order. If there is none, all connected atoms are expanded. The build then fails with unbalanced
parentheses at the end of the text when a scope is left open; otherwise the tokens are those of a
scope, and its result is the tree of that scope with the expansions in place of the atoms. So a
build fails exactly when a token is offending or a scope is left open. -/
theorem descend_fails_at_first_offence
    (expand : String → ExceptT LogicError (StateM σ) Requirement) (s : σ) (requirement : String) :
    (∀ (m : Type → Type) [Monad m] [LawfulMonad m]
      (expand : String → ExceptT LogicError m Requirement),
        descend expand requirement = buildWith expand requirement) ∧
    (∀ before placed remaining e, Token.tokenize requirement = before ++ placed :: remaining →
      Sound requirement expand s before → Offends requirement expand s before placed e →
        (outcomeFrom s (descend expand requirement)).1 = .error e ∧
          expandedAtoms expand s requirement =
            OpenScopes.connectedAtoms {} (before ++ [placed])) ∧
    (Sound requirement expand s (Token.tokenize requirement) →
      expandedAtoms expand s requirement =
          OpenScopes.connectedAtoms {} (Token.tokenize requirement) ∧
        ((OpenScopes.after (Token.tokenize requirement)).outer ≠ [] →
          (outcomeFrom s (descend expand requirement)).1 =
            .error (.unbalancedParentheses requirement requirement.utf8ByteSize)) ∧
        ((OpenScopes.after (Token.tokenize requirement)).outer = [] →
          Part.tokensList (OpenScopes.after (Token.tokenize requirement)).innermost =
              (Token.tokenize requirement).map PlacedToken.token ∧
            (∃ r, (outcomeFrom s (descend expand requirement)).1 = .ok r) ∧
            descend expand requirement =
              (Part.tree (OpenScopes.after (Token.tokenize requirement)).innermost).substM
                expand)) ∧
    ((∃ e, (outcomeFrom s (descend expand requirement)).1 = .error e) ↔
      (∃ before placed remaining e, Token.tokenize requirement = before ++ placed :: remaining ∧
        Offends requirement expand s before placed e) ∨
      (OpenScopes.after (Token.tokenize requirement)).outer ≠ []) := by
  rw [descend_eq_buildWith expand requirement]
  refine ⟨fun m _ _ expand => descend_eq_buildWith expand requirement,
    fun before placed remaining e htokens hsound => hsound.outcome_of_offends htokens,
    fun hsound => ⟨hsound.expandedAtoms_eq, hsound.outcome_of_open, hsound.built⟩, ?_⟩
  constructor
  · rintro ⟨e, herror⟩
    by_cases hsound : Sound requirement expand s (Token.tokenize requirement)
    · refine Or.inr fun hclosed => ?_
      obtain ⟨-, ⟨r, hok⟩, -⟩ := hsound.built hclosed
      exact absurd (hok.symm.trans herror) nofun
    · exact Or.inl (exists_offends_of_not_sound hsound)
  · have hfirst : (∃ before placed remaining e,
        Token.tokenize requirement = before ++ placed :: remaining ∧
          Offends requirement expand s before placed e) →
        ∃ e, (outcomeFrom s (buildWith expand requirement)).1 = .error e := by
      rintro ⟨before, placed, remaining, e, htokens, hoffends⟩
      obtain ⟨front, first, back, e', hsplit, hsound, hfirst⟩ :=
        exists_first_offence remaining hoffends
      exact ⟨e', (hsound.outcome_of_offends (htokens.trans hsplit) hfirst).1⟩
    rintro (hoffends | hopen)
    · exact hfirst hoffends
    · by_cases hsound : Sound requirement expand s (Token.tokenize requirement)
      · exact ⟨_, hsound.outcome_of_open hopen⟩
      · exact hfirst (exists_offends_of_not_sound hsound)

/-- In `A (B)` the parenthesis is the first offending token, and `A` alone is expanded. -/
theorem descend_adjacent_operands :
    let expand : String → ExceptT LogicError (StateM Unit) Requirement := fun atom =>
      pure (.leaf atom)
    Token.tokenize "A (B)" = [⟨.atom "A", 0⟩] ++ ⟨.opening, 2⟩ :: [⟨.atom "B", 3⟩, ⟨.closing, 4⟩] ∧
      Sound "A (B)" expand () [⟨.atom "A", 0⟩] ∧
      Offends "A (B)" expand () [⟨.atom "A", 0⟩] ⟨.opening, 2⟩ (.missingConnective "A (B)" 2) ∧
      (outcomeFrom () (descend expand "A (B)")).1 = .error (.missingConnective "A (B)" 2) ∧
      expandedAtoms expand () "A (B)" = ["A"] := by
  intro expand
  have htokens : Token.tokenize "A (B)" =
      [⟨.atom "A", 0⟩] ++ ⟨.opening, 2⟩ :: [⟨.atom "B", 3⟩, ⟨.closing, 4⟩] := by decide
  have hsound : Sound "A (B)" expand () [⟨.atom "A", 0⟩] := by
    intro before placed remaining e hsplit hoffends
    obtain ⟨rfl, rfl, rfl⟩ : before = [] ∧ placed = ⟨.atom "A", 0⟩ ∧ remaining = [] := by
      cases before with
      | nil =>
        obtain ⟨rfl, rfl⟩ := List.cons.inj hsplit
        exact ⟨rfl, rfl, rfl⟩
      | cons first before => exact absurd (congrArg List.length hsplit) (by simp)
    have hfits : (OpenScopes.after []).fault? "A (B)" ⟨.atom "A", 0⟩ = none := rfl
    cases hoffends with
    | fault hfault => exact absurd (hfits.symm.trans hfault) nofun
    | rejected hconnected hbefore hexpand => exact absurd (congrArg Prod.fst hexpand) nofun
  have hoffends : Offends "A (B)" expand () [⟨.atom "A", 0⟩] ⟨.opening, 2⟩
      (.missingConnective "A (B)" 2) := .fault rfl
  obtain ⟨-, hfails, -, -⟩ := descend_fails_at_first_offence expand () "A (B)"
  exact ⟨htokens, hsound, hoffends, hfails _ _ _ _ htokens hsound hoffends⟩

end Offences

end SeedLogic
