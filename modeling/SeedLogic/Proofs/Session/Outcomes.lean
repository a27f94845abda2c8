import SeedLogic.Proofs.Session.Answers

/-!
# Outcomes of queries

The outcome of a query in a session is its result together with the session afterwards. A query
that only asks and remembers lets the session grow: the tables, the settings and the choice of
bosses stay, and what was remembered is still remembered.

## Main definitions

* `Session.outcome` : the outcome of a query.
* `Session.Grows` : one session views what the other one views and remembers no less.
* `Session.marking` : the session after a boss has been marked.
* `Session.Refuses` : a query fails since an expansion nests too deep.
-/

namespace SeedLogic

variable {α β : Type}

namespace Session

/-- The result of a query and the session after it. -/
def outcome (s : Session) (query : Query α) : Except LogicError α × Session :=
  Id.run (query.run.run s)

/-- An outcome is its result together with the session afterwards. -/
theorem eq_outcome_of_fst {s : Session} {query : Query α} {result : Except LogicError α}
    (h : (s.outcome query).1 = result) : s.outcome query = (result, (s.outcome query).2) := by
  rw [← h]

@[simp]
theorem outcome_pure (s : Session) (a : α) : s.outcome (pure a) = (.ok a, s) := rfl

@[simp]
theorem outcome_throw (s : Session) (e : LogicError) :
    s.outcome (throw e : Query α) = (.error e, s) := rfl

@[simp]
theorem outcome_get (s : Session) : s.outcome (get : Query Session) = (.ok s, s) := rfl

@[simp]
theorem outcome_lift (s : Session) (result : Except LogicError α) :
    s.outcome (liftM result) = (result, s) := by
  cases result <;> rfl

@[simp]
theorem outcome_view (s : Session) :
    s.outcome Surroundings.session.view = (.ok s.bare, s) := rfl

theorem outcome_bind (s : Session) (query : Query α) (next : α → Query β) :
    s.outcome (query >>= next) =
      match s.outcome query with
      | (.ok a, t) => t.outcome (next a)
      | (.error e, t) => (.error e, t) := by
  have h : s.outcome (query >>= next) =
      match s.outcome query with
      | (result, t) => Id.run ((ExceptT.bindCont next result).run t) := rfl
  rw [h]
  rcases s.outcome query with ⟨_ | _, t⟩ <;> rfl

/-- A query that succeeds hands its result to the query after it. -/
theorem outcome_bind_of_ok {s t : Session} {query : Query α} {a : α} (next : α → Query β)
    (h : s.outcome query = (.ok a, t)) : s.outcome (query >>= next) = t.outcome (next a) := by
  rw [outcome_bind, h]

/-- A query that goes on from the result of another one succeeds only if both do. -/
theorem exists_of_outcome_bind {s : Session} {query : Query α} {next : α → Query β} {b : β}
    (h : (s.outcome (query >>= next)).1 = .ok b) :
    ∃ a t, s.outcome query = (.ok a, t) ∧ (t.outcome (next a)).1 = .ok b := by
  rw [outcome_bind] at h
  rcases hquery : s.outcome query with ⟨e | a, t⟩
  · rw [hquery] at h
    cases h
  · rw [hquery] at h
    exact ⟨a, t, rfl, h⟩

/-- A query that goes on from the result of another one fails only if one of them does. -/
theorem of_outcome_bind_error {s : Session} {query : Query α} {next : α → Query β} {e : LogicError}
    (h : (s.outcome (query >>= next)).1 = .error e) :
    (s.outcome query).1 = .error e ∨
      ∃ a t, s.outcome query = (.ok a, t) ∧ (t.outcome (next a)).1 = .error e := by
  rw [outcome_bind] at h
  rcases hquery : s.outcome query with ⟨e' | a, t⟩ <;> rw [hquery] at h
  · obtain rfl : e' = e := Except.error.inj h
    exact Or.inl rfl
  · exact Or.inr ⟨a, t, rfl, h⟩

/-- A result that is converted is the conversion of a result. -/
theorem exists_of_outcome_map {s : Session} {query : Query α} {f : α → β} {b : β}
    (h : (s.outcome (f <$> query)).1 = .ok b) :
    ∃ a t, s.outcome query = (.ok a, t) ∧ f a = b := by
  rw [← bind_pure_comp] at h
  obtain ⟨a, t, hquery, hb⟩ := exists_of_outcome_bind h
  exact ⟨a, t, hquery, Except.ok.inj hb⟩

/-- The conversion of a result. -/
theorem fst_outcome_map {s : Session} {query : Query α} {a : α} (f : α → β)
    (h : (s.outcome query).1 = .ok a) : (s.outcome (f <$> query)).1 = .ok (f a) := by
  rw [← bind_pure_comp, outcome_bind_of_ok _ (eq_outcome_of_fst h)]
  rfl

/-! ### Reports -/

/-- The session with an event recorded. -/
def recording (s : Session) (event : AuditEvent) : Session :=
  { s with log := event :: s.log }

@[simp]
theorem events_recording (s : Session) (event : AuditEvent) :
    (s.recording event).events = s.events ++ [event] :=
  List.reverse_cons

theorem outcome_audited (s : Session) (operation : String) (query : Query α) :
    s.outcome (audited operation query) =
      match s.outcome query with
      | (.ok a, t) => (.ok a, t)
      | (.error e, t) => (.error e, t.recording (.dataIntegrityError operation e.message)) := by
  rcases hquery : s.outcome query with ⟨_ | _, t⟩ <;>
  · rw [outcome] at hquery
    rw [outcome, audited, ExceptT.run_mk, StateT.run_bind, Id.run_bind, hquery]
    rfl

/-- Reporting does not change a result. -/
theorem fst_outcome_audited (s : Session) (operation : String) (query : Query α) :
    (s.outcome (audited operation query)).1 = (s.outcome query).1 := by
  rw [outcome_audited]
  rcases s.outcome query with ⟨_ | _, t⟩ <;> rfl

/-- An audited query that succeeds does so without a report. -/
theorem outcome_of_audited {s t : Session} {operation : String} {query : Query α} {a : α}
    (h : s.outcome (audited operation query) = (.ok a, t)) : s.outcome query = (.ok a, t) := by
  rw [outcome_audited] at h
  rcases hquery : s.outcome query with ⟨e | b, u⟩
  · rw [hquery] at h
    exact absurd (congrArg Prod.fst h) nofun
  · rw [hquery] at h
    exact h

/-! ### Memory -/

/-- The session with an answer remembered. -/
def remembering (s : Session) (q : Question) (answer : q.Answer) : Session :=
  { s with cache := s.cache.insert q answer }

/-- Whether the answer to a question is remembered. -/
def knows (s : Session) (q : Question) : Bool := (s.cache.get? q).isSome

theorem get?_remembering (s : Session) (q : Question) (answer : q.Answer) :
    (s.remembering q answer).cache.get? q = some answer :=
  s.cache.get?_insert_self q answer

theorem get?_remembering_of_ne (s : Session) {q other : Question} (answer : q.Answer)
    (h : other ≠ q) : (s.remembering q answer).cache.get? other = s.cache.get? other :=
  s.cache.get?_insert_of_ne answer h

section Remember

variable {s : Session} {q : Question} (query : Query q.Answer)

private theorem outcome_remember :
    s.outcome (remember q query) =
      s.outcome (match s.cache.get? q with
        | some answer => pure answer
        | none => do
          let answer ← query
          modify fun s => { s with cache := s.cache.insert q answer }
          pure answer) := rfl

/-- A remembered answer is given back without a computation. -/
theorem outcome_remember_of_some {answer : q.Answer} (h : s.cache.get? q = some answer) :
    s.outcome (remember q query) = (.ok answer, s) := by
  rw [outcome_remember, h]
  rfl

/-- An answer that is not remembered is computed, and remembered unless that fails. -/
theorem outcome_remember_of_none (h : s.cache.get? q = none) :
    s.outcome (remember q query) =
      match s.outcome query with
      | (.ok answer, t) => (.ok answer, t.remembering q answer)
      | (.error e, t) => (.error e, t) := by
  rw [outcome_remember, h]
  refine (outcome_bind s query _).trans ?_
  rcases s.outcome query with ⟨_ | _, t⟩ <;> rfl

/-- Only an answer that is not remembered fails, and then since it cannot be computed. -/
theorem of_outcome_remember_error {e : LogicError}
    (h : (s.outcome (remember q query)).1 = .error e) :
    s.cache.get? q = none ∧ (s.outcome query).1 = .error e := by
  cases hget : s.cache.get? q with
  | some answer =>
    rw [outcome_remember_of_some query hget] at h
    cases h
  | none =>
    rw [outcome_remember_of_none query hget] at h
    rcases hquery : s.outcome query with ⟨e' | answer, t⟩ <;> rw [hquery] at h
    · exact ⟨rfl, h⟩
    · cases h

/-- The result is the one that is computed, provided that an answer that is remembered is the same
one. -/
theorem fst_outcome_remember {result : Except LogicError q.Answer}
    (hcomputed : (s.outcome query).1 = result)
    (hremembered : ∀ answer, s.cache.get? q = some answer → result = .ok answer) :
    (s.outcome (remember q query)).1 = result := by
  cases hget : s.cache.get? q with
  | none =>
    rw [outcome_remember_of_none query hget, ← hcomputed]
    rcases s.outcome query with ⟨_ | _, t⟩ <;> rfl
  | some answer => rw [outcome_remember_of_some query hget, hremembered answer hget]

end Remember

/-! ### Expanding atoms -/

section Expansion

variable {flattened : Bool} {atom : String} {e : LogicError}

/-- What an atom becomes when expansions may not nest any deeper. -/
theorem outcome_expandAtom_zero (s : Session) :
    s.outcome (expandAtom 0 flattened atom) =
      match s.resolution.expansion flattened atom with
      | .ok (.tree r) => (.ok r, s)
      | .ok _ => (.error (.nestingTooDeep atom maxExpansionDepth), s)
      | .error e => (.error e, s) := by
  rw [expandAtom, outcome_bind_of_ok _ (outcome_get s), outcome_bind, outcome_lift]
  rcases s.resolution.expansion flattened atom with e | (r | text | ⟨general, detailed, mode⟩) <;>
    rfl

/-- What an atom becomes when expansions may nest deeper. -/
theorem outcome_expandAtom_succ (s : Session) (depth : Nat) :
    s.outcome (expandAtom (depth + 1) flattened atom) =
      match s.resolution.expansion flattened atom with
      | .ok (.tree r) => (.ok r, s)
      | .ok (.requirement text) =>
        s.outcome (Requirement.buildWith (expandAtom depth flattened) text)
      | .ok (.location general detailed mode) =>
        s.outcome (rawLocationWith (expandAtom depth) general detailed mode)
      | .error e => (.error e, s) := by
  rw [expandAtom, outcome_bind_of_ok _ (outcome_get s), outcome_bind, outcome_lift]
  rcases s.resolution.expansion flattened atom with e | (r | text | ⟨general, detailed, mode⟩) <;>
    rfl

/-- A location that is not remembered fails as its entry in the tables does. -/
theorem outcome_rawLocationWith_of_error {s : Session} (expand : Bool → String → Query Requirement)
    {general detailed : String}
    (hget : s.cache.get? (.rawLocation general detailed flattened) = none)
    (hentry : s.data.locationEntry general detailed = .error e) :
    s.outcome (rawLocationWith expand general detailed flattened) = (.error e, s) := by
  rw [rawLocationWith, outcome_remember_of_none _ hget, outcome_bind_of_ok _ (outcome_get s),
    outcome_bind, outcome_lift, hentry]

end Expansion

/-! ### Marking bosses -/

/-- The session after the boss of a dungeon has been marked as required or not. -/
def marking (s : Session) (dungeon : String) (required : Bool) : Session :=
  { s with
    notRequired := if required then s.notRequired.erase dungeon else s.notRequired.add dungeon
    cache := s.cache.invalidate .bossDependent
    log := .cacheInvalidated .bossDependent (s.cache.dropped .bossDependent) ::
      .bossRequirementChanged dungeon required :: s.log }

/-- Marking the boss of a dungeon succeeds exactly when there is one, and else changes nothing. -/
theorem outcome_setBoss (s : Session) (dungeon : String) (required : Bool) :
    s.outcome (setBoss dungeon required) =
      match s.data.bossRequirement dungeon with
      | .ok _ => (.ok (), s.marking dungeon required)
      | .error e => (.error e, s) := by
  rw [setBoss, outcome_bind_of_ok _ (outcome_get s)]
  cases s.data.bossRequirement dungeon <;> rfl

/-! ### Refusal -/

/-- The query fails since an expansion nests too deep. -/
def Refuses (s : Session) (query : Query α) : Prop :=
  ∃ atom t, s.outcome query = (.error (.nestingTooDeep atom maxExpansionDepth), t)

namespace Refuses

variable {s : Session} {query : Query α}

theorem bind (h : s.Refuses query) (next : α → Query β) : s.Refuses (query >>= next) := by
  obtain ⟨atom, t, hquery⟩ := h
  exact ⟨atom, t, by rw [outcome_bind, hquery]⟩

theorem audited (h : s.Refuses query) (operation : String) :
    s.Refuses (audited operation query) := by
  obtain ⟨atom, t, hquery⟩ := h
  exact ⟨atom, _, by rw [outcome_audited, hquery]⟩

theorem remember {q : Question} {query : Query q.Answer} (h : s.Refuses query)
    (hget : s.cache.get? q = none) : s.Refuses (remember q query) := by
  obtain ⟨atom, t, hquery⟩ := h
  exact ⟨atom, t, by rw [outcome_remember_of_none query hget, hquery]⟩

end Refuses

/-! ### Growth -/

/-- The second session views what the first one views and remembers no less. -/
structure Grows (s t : Session) : Prop where
  view : t.bare = s.bare
  remembers (q : Question) (answer : q.Answer) :
    s.cache.get? q = some answer → t.cache.get? q = some answer

namespace Grows

variable {s t u : Session}

protected theorem refl (s : Session) : s.Grows s := ⟨rfl, fun _ _ h => h⟩

protected theorem trans (hst : s.Grows t) (htu : t.Grows u) : s.Grows u :=
  ⟨htu.view.trans hst.view, fun q answer h => htu.remembers q answer (hst.remembers q answer h)⟩

theorem knows (h : s.Grows t) {q : Question} (hq : s.knows q = true) : t.knows q = true := by
  obtain ⟨answer, hanswer⟩ := Option.isSome_iff_exists.1 hq
  exact Option.isSome_iff_exists.2 ⟨answer, h.remembers q answer hanswer⟩

/-- Recording an event changes nothing that is viewed or remembered. -/
theorem recording (s : Session) (event : AuditEvent) : s.Grows (s.recording event) :=
  ⟨rfl, fun _ _ h => h⟩

/-- Recording an event in the smaller session changes nothing. -/
theorem of_recording (h : s.Grows t) (event : AuditEvent) : (s.recording event).Grows t :=
  ⟨h.view, h.remembers⟩

/-- Remembering an answer forgets nothing, provided that it agrees with an answer remembered
before. -/
theorem remembering {q : Question} {answer : q.Answer}
    (h : ∀ old, s.cache.get? q = some old → old = answer) :
    s.Grows (s.remembering q answer) := by
  refine ⟨rfl, fun other old hold => ?_⟩
  by_cases heq : other = q
  · subst heq
    rw [get?_remembering, h old hold]
  · rw [get?_remembering_of_ne s answer heq, hold]

/-- The smaller session may remember what the larger one does. -/
theorem of_remembering (h : s.Grows t) {q : Question} {answer : q.Answer}
    (hq : t.cache.get? q = some answer) : (s.remembering q answer).Grows t := by
  refine ⟨h.view, fun other old hold => ?_⟩
  by_cases heq : other = q
  · subst heq
    rw [get?_remembering] at hold
    rw [hq, hold]
  · rw [get?_remembering_of_ne s answer heq] at hold
    exact h.remembers other old hold

end Grows

end Session

end SeedLogic
