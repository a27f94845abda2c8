import SeedLogic.Proofs.Session.Memory
import SeedLogic.Proofs.Session.Queries

/-!
# Queries in sessions that remember more

A query that is not refused for its depth has the same result in every faithful session that views
the same and remembers more. While both sessions compute, the larger one keeps remembering all that
the smaller one does. When the larger session recalls an answer that the smaller one computes, the
smaller one learns nothing on the way that the larger one did not know already, since a faithful
session knows every question that its answers ask.

Only a refusal is different: what the larger session recalls does not count towards the depth.

## Main definitions

* `Follows` : queries that learn from a recomputation only what a larger session knows.
* `Agrees` : queries whose results agree as sessions remember more.
* `Steady` : queries that keep sessions faithful and agree.

## Main results

* `agrees_answer` : the answers computed in a session agree.
* `Operation.steady` : queries are steady.
-/

namespace SeedLogic

open Requirement Session

variable {α β : Type}

/-! ### Computing what a larger session knows -/

/-- In every session smaller than `t`, the query is refused or has the recomputed result, and then
it has learnt only what `t` knows. -/
def Follows (t : Session) (α : Type) (x : Query α) (y : Unit → ExceptT LogicError Option α) :
    Prop :=
  ∀ s : Session, s.Grows t → ∀ a, (y ()).run = some (.ok a) →
    s.Refuses x ∨ ∃ u, s.outcome x = (.ok a, u) ∧ u.Grows t

private theorem follows_sequential (t : Session) : Sequential (Follows t) where
  pure := by
    intro α a s hs b hb
    obtain rfl : a = b := by simpa using hb
    exact Or.inr ⟨s, rfl, hs⟩
  throw := by
    intro α e s hs b hb
    exact absurd hb (by simp)
  bind := by
    intro α β x y f g hxy hfg s hs b hb
    rw [run_bind] at hb
    obtain ⟨_ | a, hy, hg⟩ := Option.bind_eq_some_iff.1 hb
    · exact absurd hg (by simp)
    · rcases hxy s hs a hy with hrefuses | ⟨u, hx, hu⟩
      · exact Or.inl (hrefuses.bind f)
      · rcases hfg a u hu b hg with ⟨atom, v, hf⟩ | ⟨v, hf, hv⟩
        · exact Or.inl ⟨atom, v, by rw [outcome_bind, hx, ← hf]⟩
        · exact Or.inr ⟨v, by rw [outcome_bind, hx, ← hf], hv⟩

private theorem follows_related (t : Session) (i : Reach) :
    Surroundings.Related (Follows t) Surroundings.session fun _ =>
      Surroundings.within t.bare i where
  toSequential := follows_sequential t
  view := by
    intro s hs a ha
    obtain rfl : t.bare = a := by
      simpa [Surroundings.within, Surroundings.plain] using ha
    exact Or.inr ⟨s, congrArg (fun view => (Except.ok view, s)) hs.view.symm, hs⟩
  report := by
    intro α operation x y hxy s hs a ha
    rcases hxy s hs a ha with hrefuses | ⟨u, hx, hu⟩
    · exact Or.inl (hrefuses.audited operation)
    · exact Or.inr ⟨u, by simp only [Surroundings.session, outcome_audited, hx], hu⟩
  refuse := by
    intro atom y s hs a ha
    exact Or.inl ⟨atom, s, rfl⟩

private theorem follows_remember {t : Session} (ht : t.Faithful) {i : Reach}
    (hknown : i.known = t.knows) {q : Question} {x : Query q.Answer}
    (hx : Follows t q.Answer x fun _ => i.answer t.bare q) :
    Follows t q.Answer (remember q x) fun _ =>
      (Surroundings.within t.bare i).ask q (i.answer t.bare q) := by
  intro s hs a ha
  by_cases hq : i.known q = true
  · simp only [Surroundings.within, if_pos hq] at ha
    -- The larger session remembers the very answer that is computed here.
    obtain ⟨answer, hget⟩ := Option.isSome_iff_exists.1 (hknown ▸ hq : t.knows q = true)
    obtain rfl : answer = a :=
      (ht.settled q answer hget).unique (hknown ▸ settles_of_run_eq ha)
    cases hsmall : s.cache.get? q with
    | some old =>
      obtain rfl : old = answer :=
        Option.some.inj ((hs.remembers q old hsmall).symm.trans hget)
      exact Or.inr ⟨s, outcome_remember_of_some x hsmall, hs⟩
    | none =>
      rcases hx s hs answer ha with hrefuses | ⟨u, hx', hu⟩
      · exact Or.inl (hrefuses.remember hsmall)
      · refine Or.inr ⟨u.remembering q answer, ?_, hu.of_remembering hget⟩
        rw [outcome_remember_of_none x hsmall, hx']
  · simp only [Surroundings.within, if_neg hq] at ha
    exact absurd ha (by simp)

private theorem follows_expand {t : Session} (ht : t.Faithful) (depth depth' : Nat)
    (flattened : Bool) (atom : String) :
    Follows t Requirement (Surroundings.session.expand depth flattened atom) fun _ =>
      (Surroundings.within t.bare ⟨t.knows, depth'⟩).expand depth' flattened atom := by
  induction depth generalizing depth' flattened atom with
  | zero => exact (follows_related t _).expand_zero (fun _ => depth') flattened atom
  | succ depth ih =>
    cases depth' with
    | zero =>
      -- The recomputation has no result beyond its depth, so there is nothing to follow.
      refine (follows_related t _).expandBy (fun expansion s hs a ha => ?_) flattened atom
      exact absurd ha (by simp [Surroundings.within, Surroundings.plain])
    | succ depth' =>
      exact (follows_related t _).expand_succ (ih depth')
        (fun _ => follows_remember ht (i := ⟨t.knows, depth'⟩) rfl) flattened atom

private theorem follows_answer {t : Session} (ht : t.Faithful) (depth depth' : Nat)
    (q : Question) :
    Follows t q.Answer (Surroundings.session.answer depth q) fun _ =>
      Reach.answer t.bare q ⟨t.knows, depth'⟩ :=
  (follows_related t ⟨t.knows, depth'⟩).answer (follows_expand ht depth depth')
    (fun _ => follows_remember ht (i := ⟨t.knows, depth'⟩) rfl) q

/-! ### Agreement -/

/-- The first query is refused, or both have the same result, the second one in a faithful session
that remembers more; and that session still remembers more afterwards. -/
def Agrees (α : Type) (x : Query α) (y : Unit → Query α) : Prop :=
  ∀ s t : Session, s.Grows t → t.Faithful →
    s.Refuses x ∨ ∃ result s' t', s.outcome x = (result, s') ∧ t.outcome (y ()) = (result, t') ∧
      s'.Grows t' ∧ t'.Faithful

private theorem agrees_sequential : Sequential Agrees where
  pure := by
    intro α a s t hst ht
    exact Or.inr ⟨.ok a, s, t, rfl, rfl, hst, ht⟩
  throw := by
    intro α e s t hst ht
    exact Or.inr ⟨.error e, s, t, rfl, rfl, hst, ht⟩
  bind := by
    intro α β x y f g hxy hfg s t hst ht
    rcases hxy s t hst ht with hrefuses | ⟨result, s', t', hx, hy, hst', ht'⟩
    · exact Or.inl (hrefuses.bind f)
    · cases result with
      | error e =>
        exact Or.inr ⟨.error e, s', t', by rw [outcome_bind, hx], by rw [outcome_bind, hy],
          hst', ht'⟩
      | ok a =>
        rcases hfg a s' t' hst' ht' with ⟨atom, u, hf⟩ | ⟨result, s'', t'', hf, hg, hrest⟩
        · exact Or.inl ⟨atom, u, by rw [outcome_bind, hx, ← hf]⟩
        · exact Or.inr ⟨result, s'', t'', by rw [outcome_bind, hx, ← hf],
            by rw [outcome_bind, hy, ← hg], hrest⟩

private theorem agrees_audited {x : Query α} {y : Unit → Query α} (operation : String)
    (hxy : Agrees α x y) : Agrees α (audited operation x) fun u => audited operation (y u) := by
  intro s t hst ht
  rcases hxy s t hst ht with hrefuses | ⟨result, s', t', hx, hy, hst', ht'⟩
  · exact Or.inl (hrefuses.audited operation)
  · cases result with
    | error e =>
      refine Or.inr ⟨.error e, _, _, by rw [outcome_audited, hx], by rw [outcome_audited, hy], ?_,
        ht'.recording _⟩
      exact (hst'.of_recording _).trans (Grows.recording t' _)
    | ok a =>
      exact Or.inr ⟨.ok a, s', t', by rw [outcome_audited, hx], by rw [outcome_audited, hy], hst',
        ht'⟩

private theorem agrees_related :
    Surroundings.Related Agrees Surroundings.session fun _ => Surroundings.session where
  toSequential := agrees_sequential
  view := by
    intro s t hst ht
    exact Or.inr ⟨.ok s.bare, s, t, rfl, congrArg (fun view => (Except.ok view, t)) hst.view,
      hst, ht⟩
  report := by
    intro α operation x y hxy
    exact agrees_audited operation hxy
  refuse := by
    intro atom y s t hst ht
    exact Or.inl ⟨atom, s, rfl⟩

private theorem agrees_remember (depth : Nat) (q : Question)
    (hx : Agrees q.Answer (Surroundings.session.answer depth q) fun _ =>
      Surroundings.session.answer depth q) :
    Agrees q.Answer (remember q (Surroundings.session.answer depth q)) fun _ =>
      remember q (Surroundings.session.answer depth q) := by
  intro s t hst ht
  cases hlarge : t.cache.get? q with
  | some answer =>
    cases hsmall : s.cache.get? q with
    | some old =>
      obtain rfl : old = answer :=
        Option.some.inj ((hst.remembers q old hsmall).symm.trans hlarge)
      exact Or.inr ⟨.ok old, s, t, outcome_remember_of_some _ hsmall,
        outcome_remember_of_some _ hlarge, hst, ht⟩
    | none =>
      obtain ⟨depth', hdepth'⟩ := ht.settled q answer hlarge
      rcases follows_answer ht depth depth' q s hst answer
        (hdepth' _ ⟨fun _ hq => hq, Nat.le_refl _⟩) with hrefuses | ⟨u, hs, hu⟩
      · exact Or.inl (hrefuses.remember hsmall)
      · exact Or.inr ⟨.ok answer, u.remembering q answer, t,
          by rw [outcome_remember_of_none _ hsmall, hs], outcome_remember_of_some _ hlarge,
          hu.of_remembering hlarge, ht⟩
  | none =>
    have hsmall : s.cache.get? q = none := by
      refine Option.eq_none_iff_forall_ne_some.2 fun old hold => ?_
      exact absurd ((hst.remembers q old hold).symm.trans hlarge) (by simp)
    rcases hx s t hst ht with hrefuses | ⟨result, s', t', hs, ht', hst', hfaithful⟩
    · exact Or.inl (hrefuses.remember hsmall)
    · cases result with
      | error e =>
        exact Or.inr ⟨.error e, s', t', by rw [outcome_remember_of_none _ hsmall, hs],
          by rw [outcome_remember_of_none _ hlarge, ht'], hst', hfaithful⟩
      | ok answer =>
        obtain ⟨hgrows, -, hsettles⟩ := tracked_answer t.bare depth q t ht rfl
        rw [ht'] at hgrows hsettles
        have hsettled : Settles t'.knows (Reach.answer t'.bare q) answer := by
          rw [hgrows.view]
          exact hsettles answer rfl
        obtain ⟨hgrows', hfaithful'⟩ := hfaithful.remembering hsettled
        exact Or.inr ⟨.ok answer, s'.remembering q answer, t'.remembering q answer,
          by rw [outcome_remember_of_none _ hsmall, hs],
          by rw [outcome_remember_of_none _ hlarge, ht'],
          (hst'.trans hgrows').of_remembering (get?_remembering t' q answer), hfaithful'⟩

private theorem agrees_expand (depth : Nat) (flattened : Bool) (atom : String) :
    Agrees Requirement (Surroundings.session.expand depth flattened atom) fun _ =>
      Surroundings.session.expand depth flattened atom := by
  induction depth generalizing flattened atom with
  | zero => exact agrees_related.expand_zero (fun _ => 0) flattened atom
  | succ depth ih =>
    exact agrees_related.expand_succ ih (agrees_remember depth) flattened atom

/-- The answers computed in a session agree as sessions remember more. -/
theorem agrees_answer (depth : Nat) (q : Question) :
    Agrees q.Answer (Surroundings.session.answer depth q) fun _ =>
      Surroundings.session.answer depth q :=
  agrees_related.answer (agrees_expand depth) (agrees_remember depth) q

/-! ### Steady queries -/

/-- A query that lets faithful sessions grow, keeps them faithful, and agrees as they remember
more. -/
structure Steady (x : Query α) : Prop where
  keeps (s : Session) : s.Faithful → s.Grows (s.outcome x).2 ∧ (s.outcome x).2.Faithful
  agrees : Agrees α x fun _ => x

private theorem steady_stepwise : Stepwise fun _ x => Steady x where
  pure a := ⟨fun s hs => ⟨Grows.refl s, hs⟩, agrees_sequential.pure a⟩
  throw e := ⟨fun s hs => ⟨Grows.refl s, hs⟩, agrees_sequential.throw e⟩
  bind := by
    intro α β x next hx hnext
    refine ⟨fun s hs => ?_, agrees_sequential.bind hx.agrees fun a => (hnext a).agrees⟩
    obtain ⟨hgrows, hfaithful⟩ := hx.keeps s hs
    rw [outcome_bind]
    rcases hx' : s.outcome x with ⟨_ | a, t⟩ <;> rw [hx'] at hgrows hfaithful
    · exact ⟨hgrows, hfaithful⟩
    · obtain ⟨hgrows', hfaithful'⟩ := (hnext a).keeps t hfaithful
      exact ⟨hgrows.trans hgrows', hfaithful'⟩
  view := ⟨fun s hs => ⟨Grows.refl s, hs⟩, agrees_related.view⟩
  audited := by
    intro α operation x hx
    refine ⟨fun s hs => ?_, agrees_audited operation hx.agrees⟩
    obtain ⟨hgrows, hfaithful⟩ := hx.keeps s hs
    rw [outcome_audited]
    rcases hx' : s.outcome x with ⟨_ | a, t⟩ <;> rw [hx'] at hgrows hfaithful
    · exact ⟨hgrows.trans (Grows.recording t _), hfaithful.recording _⟩
    · exact ⟨hgrows, hfaithful⟩

/-- What a query is made of is steady. -/
theorem steady_compositional : Compositional fun _ x => Steady x where
  toStepwise := steady_stepwise
  answered q := by
    refine ⟨fun s hs => ?_, agrees_remember maxExpansionDepth q (agrees_answer _ q)⟩
    obtain ⟨hgrows, hfaithful, -⟩ := tracked_answered s.bare q s hs rfl
    exact ⟨hgrows, hfaithful⟩
  rawTree requirement flattened := by
    rw [Session.rawTree, ← Surroundings.expand_session]
    refine ⟨fun s hs => ?_, agrees_sequential.buildWith (agrees_expand _ flattened) requirement⟩
    obtain ⟨hgrows, hfaithful, -⟩ := tracked_buildWith s.bare _ flattened requirement s hs rfl
    exact ⟨hgrows, hfaithful⟩

/-- Queries are steady. -/
theorem Operation.steady {operation : Operation} (hquery : operation.isQuery = true) :
    Steady operation.query :=
  steady_compositional.query hquery

end SeedLogic
