import SeedLogic.Proofs.Session.Outcomes

/-!
# What a session remembers

A session is coherent when every answer it remembers is the one that a recomputation from scratch
reaches, asking on the way only questions that the session knows as well. Queries keep sessions
coherent, also when they fail midway: a location that was finished while expanding another one is
remembered with its own answer. A session is faithful when its items are, besides, those that its
settings fix. Nothing that a query does depends on where the items come from.

The recomputation is cut short in two ways, by a depth and by a set of known questions. Both only
ever withhold a result, so results at a smaller reach are results at every larger one.

## Main definitions

* `Reach`, `Surroundings.within` : recomputations that are cut short.
* `Session.Coherent` : sessions that remember nothing but recomputed answers.
* `Session.Faithful` : coherent sessions whose items are those that the settings fix.
* `Settling`, `Tracked` : queries whose answers are those of a recomputation, in coherent and in
  faithful sessions.

## Main results

* `Session.Faithful.recomputes` : a remembered answer is recomputed from scratch.
* `settling_answer`, `tracked_answer` : the answers computed in a session settle.
-/

namespace SeedLogic

open Requirement Session

variable {α β : Type}

/-! ### Reach -/

/-- How far a recomputation may go. -/
structure Reach where
  /-- The questions whose answers may be recalled. -/
  known : Question → Bool
  /-- The number of levels that expansions may nest. -/
  depth : Nat

namespace Reach

/-- The second reach allows what the first one does. -/
structure Le (i j : Reach) : Prop where
  known (q : Question) : i.known q = true → j.known q = true
  depth : i.depth ≤ j.depth

end Reach

/-- Answers computed from what a session views, of which only the known ones are recalled. -/
def Surroundings.within (view : Session) (i : Reach) : Surroundings Option :=
  { Surroundings.plain view with
    ask := fun q answer => if i.known q then answer else ExceptT.mk none }

/-- The answer to a question recomputed within a reach. -/
def Reach.answer (view : Session) (q : Question) (i : Reach) : ExceptT LogicError Option q.Answer :=
  (Surroundings.within view i).answer i.depth q

/-- When every question is known, the recomputation is cut short by its depth alone. -/
theorem Session.recompute_eq_run_answer (s : Session) (depth : Nat) (q : Question) :
    s.recompute depth q = (Reach.answer s.bare q ⟨fun _ => true, depth⟩).run := rfl

theorem run_bind (x : ExceptT LogicError Option α) (f : α → ExceptT LogicError Option β) :
    (x >>= f).run = x.run.bind fun
      | .ok a => (f a).run
      | .error e => some (.error e) := by
  rw [ExceptT.run_bind]
  rcases x.run with _ | _ | _ <;> rfl

/-- Every result of the first computation is one of the second. -/
private def Refines (α : Type) (x : ExceptT LogicError Option α)
    (y : Unit → ExceptT LogicError Option α) : Prop :=
  ∀ result, x.run = some result → (y ()).run = some result

private theorem refines_sequential : Sequential Refines where
  pure _ _ h := h
  throw _ _ h := h
  bind := by
    intro α β x y f g hxy hfg result h
    rw [run_bind] at h ⊢
    obtain ⟨r, hx, hf⟩ := Option.bind_eq_some_iff.1 h
    rw [hxy r hx]
    cases r with
    | error e => exact hf
    | ok a => exact hfg a result hf

private theorem refines_related (view : Session) {i j : Reach} :
    Surroundings.Related Refines (Surroundings.within view i) fun _ =>
      Surroundings.within view j where
  toSequential := refines_sequential
  view _ h := h
  report := by
    intro _ _ _ _ hxy
    exact hxy
  refuse _ _ _ h := absurd h (by simp [Surroundings.within, Surroundings.plain])

private theorem refines_ask (view : Session) {i j : Reach} (hknown : ∀ q, i.known q = true →
    j.known q = true) (q : Question) {x : ExceptT LogicError Option q.Answer}
    {y : Unit → ExceptT LogicError Option q.Answer} (hxy : Refines q.Answer x y) :
    Refines q.Answer ((Surroundings.within view i).ask q x) fun u =>
      (Surroundings.within view j).ask q (y u) := by
  intro result h
  by_cases hq : i.known q = true
  · simp only [Surroundings.within, if_pos hq] at h
    simp only [Surroundings.within, if_pos (hknown q hq)]
    exact hxy result h
  · simp only [Surroundings.within, if_neg hq] at h
    exact absurd h (by simp)

private theorem refines_expand (view : Session) {i j : Reach}
    (hknown : ∀ q, i.known q = true → j.known q = true) (depth : Nat) :
    ∀ depth', depth ≤ depth' → ∀ flattened atom,
      Refines Requirement ((Surroundings.within view i).expand depth flattened atom) fun _ =>
        (Surroundings.within view j).expand depth' flattened atom := by
  induction depth with
  | zero =>
    intro depth' _ flattened atom
    exact (refines_related view).expand_zero (fun _ => depth') flattened atom
  | succ depth ih =>
    intro depth' hle flattened atom
    obtain ⟨depth', rfl⟩ : ∃ d, depth' = d + 1 := ⟨depth' - 1, by omega⟩
    exact (refines_related view).expand_succ (ih depth' (by omega))
      (fun q => refines_ask view hknown q) flattened atom

/-- A larger reach keeps results. -/
theorem Reach.answer_mono {view : Session} {q : Question} {i j : Reach} (hij : i.Le j)
    {result : Except LogicError q.Answer} (h : (i.answer view q).run = some result) :
    (j.answer view q).run = some result :=
  (refines_related view).answer (refines_expand view hij.known i.depth j.depth hij.depth)
    (fun q => refines_ask view hij.known q) q result h

/-- Recomputations that agree on the answer `a` once their reach is large enough, where `known`
already holds all questions that they ask. -/
def Settles (known : Question → Bool) (y : Reach → ExceptT LogicError Option α) (a : α) : Prop :=
  ∃ depth, ∀ i, Reach.Le ⟨known, depth⟩ i → (y i).run = some (.ok a)

theorem Settles.mono {known known' : Question → Bool} {y : Reach → ExceptT LogicError Option α}
    {a : α} (h : Settles known y a) (hknown : ∀ q, known q = true → known' q = true) :
    Settles known' y a := by
  obtain ⟨depth, hdepth⟩ := h
  exact ⟨depth, fun i hi => hdepth i ⟨fun q hq => hi.known q (hknown q hq), hi.depth⟩⟩

/-- Recomputations settle on one answer at most. -/
theorem Settles.unique {known known' : Question → Bool} {y : Reach → ExceptT LogicError Option α}
    {a b : α} (ha : Settles known y a) (hb : Settles known' y b) : a = b := by
  obtain ⟨depth, hdepth⟩ := ha
  obtain ⟨depth', hdepth'⟩ := hb
  let i : Reach := ⟨fun q => known q || known' q, max depth depth'⟩
  have hleft := hdepth i ⟨fun q hq => Bool.or_eq_true_iff.2 (Or.inl hq), Nat.le_max_left ..⟩
  have hright := hdepth' i ⟨fun q hq => Bool.or_eq_true_iff.2 (Or.inr hq),
    Nat.le_max_right ..⟩
  simpa using hleft.symm.trans hright

/-- A result within a reach is settled. -/
theorem settles_of_run_eq {view : Session} {q : Question} {i : Reach} {a : q.Answer}
    (h : (i.answer view q).run = some (.ok a)) : Settles i.known (Reach.answer view q) a :=
  ⟨i.depth, fun _ hij => Reach.answer_mono hij h⟩

/-! ### Coherent sessions -/

/-- Every remembered answer is the recomputed one, reached by asking nothing but questions whose
answers are remembered too. -/
def Session.Coherent (s : Session) : Prop :=
  ∀ (q : Question) (a : q.Answer),
    s.cache.get? q = some a → Settles s.knows (Reach.answer s.bare q) a

/-- A session that remembers nothing is coherent. -/
theorem Session.Coherent.of_empty {s : Session} (hcache : s.cache = .empty) : s.Coherent := by
  intro q a ha
  rw [hcache] at ha
  cases ha

theorem Session.Coherent.recording {s : Session} (h : s.Coherent) (event : AuditEvent) :
    (s.recording event).Coherent := h

/-- Remembering a recomputed answer keeps a session coherent. -/
theorem Session.Coherent.remembering {s : Session} (h : s.Coherent) {q : Question} {a : q.Answer}
    (ha : Settles s.knows (Reach.answer s.bare q) a) :
    s.Grows (s.remembering q a) ∧ (s.remembering q a).Coherent := by
  have hgrows : s.Grows (s.remembering q a) :=
    Grows.remembering fun old hold => (h q old hold).unique ha
  refine ⟨hgrows, fun other b hb => ?_⟩
  have hknown : ∀ q', s.knows q' = true → (s.remembering q a).knows q' = true := fun _ =>
    hgrows.knows
  by_cases heq : other = q
  · subst heq
    obtain rfl : a = b := by simpa [get?_remembering] using hb
    exact ha.mono hknown
  · rw [get?_remembering_of_ne s a heq] at hb
    exact (h other b hb).mono hknown

/-! ### Queries in coherent sessions -/

/-- A query that lets coherent sessions with the given view grow and keeps them coherent. When it
succeeds, its result is the one on which the recomputations settle. -/
def Settling (view : Session) (α : Type) (x : Query α) (y : Reach → ExceptT LogicError Option α) :
    Prop :=
  ∀ s : Session, s.Coherent → s.bare = view →
    s.Grows (s.outcome x).2 ∧ (s.outcome x).2.Coherent ∧
      ∀ a, (s.outcome x).1 = .ok a → Settles (s.outcome x).2.knows y a

private theorem settles_bind {known known' : Question → Bool}
    {y : Reach → ExceptT LogicError Option α} {g : Reach → α → ExceptT LogicError Option β}
    {a : α} {b : β} (hknown : ∀ q, known q = true → known' q = true) (hy : Settles known y a)
    (hg : Settles known' (fun i => g i a) b) : Settles known' (fun i => y i >>= g i) b := by
  obtain ⟨depth, hdepth⟩ := hy.mono hknown
  obtain ⟨depth', hdepth'⟩ := hg
  refine ⟨max depth depth', fun i hi => ?_⟩
  have hleft := hdepth i ⟨hi.known, Nat.le_trans (Nat.le_max_left ..) hi.depth⟩
  have hright := hdepth' i ⟨hi.known, Nat.le_trans (Nat.le_max_right ..) hi.depth⟩
  rw [run_bind, hleft]
  exact hright

private theorem settling_sequential (view : Session) : Sequential (Settling view) where
  pure := by
    intro α a s hs hview
    refine ⟨Grows.refl s, hs, fun b hb => ⟨0, fun i _ => ?_⟩⟩
    obtain rfl : a = b := by simpa using hb
    rfl
  throw := by
    intro α e s hs hview
    exact ⟨Grows.refl s, hs, fun b hb => absurd hb (by simp)⟩
  bind := by
    intro α β x y f g hxy hfg s hs hview
    obtain ⟨hgrows, hcoherent, hsettles⟩ := hxy s hs hview
    rw [outcome_bind]
    rcases hx : s.outcome x with ⟨_ | a, t⟩
    · rw [hx] at hgrows hcoherent
      exact ⟨hgrows, hcoherent, fun b hb => absurd hb (by simp)⟩
    · rw [hx] at hgrows hcoherent hsettles
      obtain ⟨hgrows', hcoherent', hsettles'⟩ := hfg a t hcoherent (hgrows.view.trans hview)
      refine ⟨hgrows.trans hgrows', hcoherent', fun b hb => ?_⟩
      exact settles_bind (fun _ => hgrows'.knows) (hsettles a rfl) (hsettles' b hb)

/-- What a coherent session recalls or computes and remembers is settled, when the computation
is. -/
private theorem settling_remember {view : Session} {q : Question} {x : Query q.Answer}
    (hx : Settling view q.Answer x (Reach.answer view q)) :
    Settling view q.Answer (remember q x) fun i =>
      (Surroundings.within view i).ask q (Reach.answer view q i) := by
  -- A question that is known may be recalled, so recalling settles where the answer does.
  have hask {known : Question → Bool} {a : q.Answer} (hq : known q = true)
      (ha : Settles known (Reach.answer view q) a) :
      Settles known
        (fun i => (Surroundings.within view i).ask q (Reach.answer view q i)) a := by
    obtain ⟨depth, hdepth⟩ := ha
    refine ⟨depth, fun i hi => ?_⟩
    simp only [Surroundings.within, if_pos (hi.known q hq)]
    exact hdepth i hi
  intro s hs hview
  cases hget : s.cache.get? q with
  | some answer =>
    rw [outcome_remember_of_some x hget]
    refine ⟨Grows.refl s, hs, fun a ha => ?_⟩
    obtain rfl : answer = a := by simpa using ha
    exact hask (by simp [knows, hget]) (hview ▸ hs q answer hget)
  | none =>
    obtain ⟨hgrows, hcoherent, hsettles⟩ := hx s hs hview
    rw [outcome_remember_of_none x hget]
    rcases hx' : s.outcome x with ⟨_ | answer, t⟩
    · rw [hx'] at hgrows hcoherent
      exact ⟨hgrows, hcoherent, fun a ha => absurd ha (by simp)⟩
    · rw [hx'] at hgrows hcoherent hsettles
      have hsettled : Settles t.knows (Reach.answer t.bare q) answer := by
        rw [hgrows.view, hview]
        exact hsettles answer rfl
      obtain ⟨hgrows', hcoherent'⟩ := hcoherent.remembering hsettled
      refine ⟨hgrows.trans hgrows', hcoherent', fun a ha => ?_⟩
      obtain rfl : answer = a := by simpa using ha
      refine hask (by simp [knows, get?_remembering]) ?_
      exact (hsettles answer rfl).mono fun _ => hgrows'.knows

private theorem settling_related (view : Session) :
    Surroundings.Related (Settling view) Surroundings.session (Surroundings.within view) where
  toSequential := settling_sequential view
  view := by
    intro s hs hview
    refine ⟨Grows.refl s, hs, fun a ha => ⟨0, fun i _ => ?_⟩⟩
    obtain rfl : s.bare = a := by simpa using ha
    rw [hview]
    rfl
  report := by
    intro α operation x y hxy s hs hview
    obtain ⟨hgrows, hcoherent, hsettles⟩ := hxy s hs hview
    change s.Grows (s.outcome (audited operation x)).2 ∧ _
    simp only [Surroundings.session]
    rw [outcome_audited]
    rcases hx : s.outcome x with ⟨_ | a, t⟩
    · rw [hx] at hgrows hcoherent
      exact ⟨hgrows.trans (Grows.recording t _), hcoherent.recording _,
        fun b hb => absurd hb (by simp)⟩
    · rw [hx] at hgrows hcoherent hsettles
      exact ⟨hgrows, hcoherent, hsettles⟩
  refuse := by
    intro atom y s hs hview
    exact ⟨Grows.refl s, hs, fun a ha => absurd ha (by simp [Surroundings.session])⟩

private theorem settling_expand (view : Session) (depth : Nat) (flattened : Bool) (atom : String) :
    Settling view Requirement (Surroundings.session.expand depth flattened atom) fun i =>
      (Surroundings.within view i).expand i.depth flattened atom := by
  induction depth generalizing flattened atom with
  | zero => exact (settling_related view).expand_zero _ flattened atom
  | succ depth ih =>
    have hsucc : Settling view Requirement
        (Surroundings.session.expand (depth + 1) flattened atom) fun i =>
          (Surroundings.within view i).expand (i.depth + 1) flattened atom :=
      (settling_related view).expand_succ ih (fun q => settling_remember) flattened atom
    intro s hs hview
    obtain ⟨hgrows, hcoherent, hsettles⟩ := hsucc s hs hview
    refine ⟨hgrows, hcoherent, fun a ha => ?_⟩
    obtain ⟨depth', hdepth'⟩ := hsettles a ha
    refine ⟨depth' + 1, fun i hi => ?_⟩
    obtain ⟨known, d⟩ := i
    obtain ⟨hknown, hd⟩ := hi
    cases d with
    | zero => exact absurd hd (Nat.not_succ_le_zero depth')
    | succ d => exact hdepth' ⟨known, d⟩ ⟨hknown, Nat.le_of_succ_le_succ hd⟩

/-- The answers computed in a coherent session, to whatever depth, settle. -/
theorem settling_answer (view : Session) (depth : Nat) (q : Question) :
    Settling view q.Answer (Surroundings.session.answer depth q) (Reach.answer view q) :=
  (settling_related view).answer (settling_expand view depth) (fun _ => settling_remember) q

/-- Building a requirement text in a coherent session settles as well. -/
theorem settling_buildWith (view : Session) (depth : Nat) (flattened : Bool)
    (requirement : String) :
    Settling view Requirement
      (buildWith (Surroundings.session.expand depth flattened) requirement) fun i =>
        buildWith ((Surroundings.within view i).expand i.depth flattened) requirement :=
  (settling_sequential view).buildWith (settling_expand view depth flattened) requirement

/-! ### Faithful sessions -/

/-- The items are those that the settings fix, and every remembered answer is the recomputed one,
reached by asking nothing but questions whose answers are remembered too. -/
structure Session.Faithful (s : Session) : Prop where
  derived : s.predetermined = .derive s.settings
  settled (q : Question) (a : q.Answer) :
    s.cache.get? q = some a → Settles s.knows (Reach.answer s.bare q) a

namespace Session.Faithful

variable {s t : Session}

theorem coherent (h : s.Faithful) : s.Coherent := h.settled

/-- A coherent session that a faithful one has grown into is faithful. -/
theorem of_grows (h : s.Faithful) (hgrows : s.Grows t) (ht : t.Coherent) : t.Faithful where
  derived := by
    have hitems : t.bare.predetermined = .derive t.bare.settings := by
      rw [hgrows.view]
      exact h.derived
    exact hitems
  settled := ht

theorem recording (h : s.Faithful) (event : AuditEvent) : (s.recording event).Faithful :=
  ⟨h.derived, h.settled⟩

/-- Remembering a recomputed answer keeps a session faithful. -/
theorem remembering (h : s.Faithful) {q : Question} {a : q.Answer}
    (ha : Settles s.knows (Reach.answer s.bare q) a) :
    s.Grows (s.remembering q a) ∧ (s.remembering q a).Faithful := by
  obtain ⟨hgrows, hcoherent⟩ := h.coherent.remembering ha
  exact ⟨hgrows, h.of_grows hgrows hcoherent⟩

end Session.Faithful

/-- A query that lets faithful sessions with the given view grow and keeps them faithful. When it
succeeds, its result is the one on which the recomputations settle. -/
def Tracked (view : Session) (α : Type) (x : Query α) (y : Reach → ExceptT LogicError Option α) :
    Prop :=
  ∀ s : Session, s.Faithful → s.bare = view →
    s.Grows (s.outcome x).2 ∧ (s.outcome x).2.Faithful ∧
      ∀ a, (s.outcome x).1 = .ok a → Settles (s.outcome x).2.knows y a

/-- What settles in coherent sessions is tracked in faithful ones. -/
theorem Settling.tracked {view : Session} {x : Query α} {y : Reach → ExceptT LogicError Option α}
    (h : Settling view α x y) : Tracked view α x y := by
  intro s hs hview
  obtain ⟨hgrows, hcoherent, hsettles⟩ := h s hs.coherent hview
  exact ⟨hgrows, hs.of_grows hgrows hcoherent, hsettles⟩

/-- The answer to a question, recalled or computed and remembered, is tracked. -/
theorem tracked_answered (view : Session) (q : Question) :
    Tracked view q.Answer (answered q) fun i =>
      (Surroundings.within view i).ask q (Reach.answer view q i) :=
  (settling_remember (settling_answer view maxExpansionDepth q)).tracked

/-- The answers computed in a session, to whatever depth, are tracked by their recomputations. -/
theorem tracked_answer (view : Session) (depth : Nat) (q : Question) :
    Tracked view q.Answer (Surroundings.session.answer depth q) (Reach.answer view q) :=
  (settling_answer view depth q).tracked

/-- Building a requirement text in a session is tracked as well. -/
theorem tracked_buildWith (view : Session) (depth : Nat) (flattened : Bool)
    (requirement : String) :
    Tracked view Requirement
      (buildWith (Surroundings.session.expand depth flattened) requirement) fun i =>
        buildWith ((Surroundings.within view i).expand i.depth flattened) requirement :=
  (settling_buildWith view depth flattened requirement).tracked

/-- A remembered answer is recomputed from scratch. -/
theorem Session.Faithful.recomputes {s : Session} (h : s.Faithful) {q : Question} {a : q.Answer}
    (ha : s.cache.get? q = some a) : s.Recomputes q a := by
  obtain ⟨depth, hdepth⟩ := h.settled q a ha
  refine ⟨depth, fun more hmore => ?_⟩
  rw [recompute_eq_run_answer]
  exact hdepth ⟨fun _ => true, more⟩ ⟨fun _ _ => rfl, hmore⟩

end SeedLogic
