import SeedLogic.Proofs.Session.Agreement

/-!
# Runs of a session

Every operation keeps sessions faithful. A query does so since it is steady. Replacing the settings
and resetting forget every answer. Marking a boss forgets the answers that depend on bosses, and an
answer that stays has been computed without asking which bosses are required, neither itself nor
through the questions that it asks. So every session that is reached from a start is faithful,
whatever was asked before, in which order and with which failures.

## Main definitions

* `Session.fresh` : a session that remembers nothing yet.

## Main results

* `Reach.answer_eq_of_not_isBossDependent` : answers that do not depend on bosses.
* `Session.Faithful.after` : runs keep sessions faithful.
* `Session.Faithful.grows_after` : runs of queries forget nothing.
* `remembered_answers_recompute` : what is remembered after a run.
-/

namespace SeedLogic

open Session

/-! ### Marking bosses -/

/-- Recomputations of an answer that does not depend on bosses agree whichever bosses are required,
provided that they may recall the same answers of this kind. -/
theorem Reach.answer_eq_of_not_isBossDependent (view : Session) (notRequired : NameSet)
    {q : Question} (hq : q.isBossDependent = false) {i j : Reach}
    (hknown : ∀ other, other.isBossDependent = false → i.known other = j.known other) :
    i.answer { view with notRequired } q = j.answer view q := by
  cases q with
  | rawLocation | location | entrance | smallKeys =>
    exact absurd hq (by simp [Question.isBossDependent])
  | islandHasProgressChart island =>
    -- The only answer of this kind that asks other questions: both are of this kind, too.
    have hany := hknown .anyProgressCharts rfl
    have hvanilla := hknown (.vanillaChart island) rfl
    simp only [Reach.answer, Surroundings.answer, Surroundings.islandHasProgressChart,
      Surroundings.within, hany, hvanilla]
    rfl
  | _ => rfl

theorem Session.recompute_eq_of_not_isBossDependent (s : Session) (notRequired : NameSet)
    (depth : Nat) {q : Question} (hq : q.isBossDependent = false) :
    Session.recompute { s with notRequired } depth q = s.recompute depth q := by
  rw [recompute_eq_run_answer, recompute_eq_run_answer]
  exact congrArg ExceptT.run (Reach.answer_eq_of_not_isBossDependent s.bare notRequired hq
    fun _ _ => rfl)

/-- The answers that survive a marking of bosses are those that do not depend on bosses. -/
theorem Cache.get?_invalidate_bossDependent {c : Cache} {q : Question} {a : q.Answer}
    (h : (c.invalidate .bossDependent).get? q = some a) :
    q.isBossDependent = false ∧ c.get? q = some a := by
  rw [invalidate, get?_filter] at h
  simpa using h

/-- A faithful session stays faithful when bosses are marked and all answers that depend on bosses
are forgotten. -/
theorem Session.Faithful.marking {s : Session} (h : s.Faithful) (notRequired : NameSet)
    (log : List AuditEvent) :
    Session.Faithful
      { s with notRequired, log, cache := s.cache.invalidate .bossDependent } where
  derived := h.derived
  settled q a ha := by
    obtain ⟨hq, hget⟩ := Cache.get?_invalidate_bossDependent ha
    obtain ⟨depth, hdepth⟩ := h.settled q a hget
    refine ⟨depth, fun i hi => ?_⟩
    -- The old recomputation may recall what the new one may, and all answers about bosses.
    let j : Reach := ⟨fun other => other.isBossDependent || i.known other, i.depth⟩
    have hj : Reach.Le ⟨s.knows, depth⟩ j := by
      refine ⟨fun other hother => ?_, hi.depth⟩
      cases hdependent : other.isBossDependent with
      | true => simp [j, hdependent]
      | false =>
        have hknown : i.known other = true := hi.known other <| by
          simpa [knows, Cache.invalidate, Cache.get?_filter, hdependent] using hother
        simp [j, hknown]
    rw [← hdepth j hj]
    exact congrArg ExceptT.run
      (Reach.answer_eq_of_not_isBossDependent s.bare notRequired hq (by simp +contextual [j]))

/-- Marking a boss keeps sessions faithful and leaves the tables as they are. -/
theorem Session.Faithful.setBoss {s : Session} (h : s.Faithful) (dungeon : String)
    (required : Bool) (reply : Reply) :
    let marked := s.outcome do
      setBoss dungeon required
      pure reply
    marked.2.Faithful ∧ marked.2.data = s.data := by
  intro marked
  simp only [marked, outcome_bind, outcome_setBoss]
  cases s.data.bossRequirement dungeon with
  | error e => exact ⟨h, rfl⟩
  | ok requirement => exact ⟨h.marking _ _, rfl⟩

/-! ### Runs -/

/-- A session that remembers nothing is faithful when its items are those that its settings fix. -/
theorem Session.Faithful.of_empty {s : Session} (hitems : s.predetermined = .derive s.settings)
    (hcache : s.cache = .empty) : s.Faithful where
  derived := hitems
  settled := Coherent.of_empty hcache

/-- A session that remembers nothing yet. -/
def Session.fresh (settings : Settings) (data : GameData) (notRequired : NameSet) : Session :=
  { data, settings, predetermined := .derive settings, notRequired }

/-- The session with which a start succeeds. -/
def Session.initial (settings : Settings) (data : GameData) : Session :=
  (fresh settings data {}).recording (.sessionStarted (summary data))

/-- A start succeeds when the tables pass their integrity check. -/
theorem Session.start_of_validate (settings : Settings) {data : GameData}
    (h : data.validate = .ok ()) : (start settings data).1 = .ok (initial settings data) := by
  rw [start, h]
  rfl

/-- When a start succeeds, the tables have passed their integrity check. -/
theorem Session.validate_of_start {settings : Settings} {data : GameData} {s : Session}
    (h : (start settings data).1 = .ok s) : data.validate = .ok () := by
  unfold start at h
  split at h
  case h_1 => cases h
  case h_2 hvalidate => exact hvalidate

/-- A session starts faithful. -/
theorem Session.Faithful.of_start {settings : Settings} {data : GameData} {s : Session}
    (h : (start settings data).1 = .ok s) : s.Faithful ∧ s.data = data := by
  unfold start at h
  split at h
  · cases h
  · cases h
    exact ⟨.of_empty rfl rfl, rfl⟩

/-- Every operation keeps sessions faithful and leaves the tables as they are. -/
theorem Session.Faithful.perform {s : Session} (h : s.Faithful) (operation : Operation) :
    (operation.perform s).2.Faithful ∧ (operation.perform s).2.data = s.data := by
  by_cases hquery : operation.isQuery = true
  · obtain ⟨hgrows, hfaithful⟩ := (operation.steady hquery).keeps s h
    exact ⟨hfaithful, congrArg (fun view => view.data) hgrows.view⟩
  · cases operation with
    | updateSettings replacement => exact ⟨.of_empty rfl rfl, rfl⟩
    | reset => exact ⟨.of_empty h.derived rfl, rfl⟩
    | invalidate scope =>
      cases scope with
      | all => exact ⟨.of_empty h.derived rfl, rfl⟩
      | bossDependent => exact ⟨h.marking s.notRequired _, rfl⟩
    | cachedEntries => exact ⟨h, rfl⟩
    | setBossRequired dungeon => exact h.setBoss dungeon true .done
    | setBossNotRequired dungeon => exact h.setBoss dungeon false .done
    | _ => exact absurd rfl hquery

theorem Session.after_append (s : Session) (operations later : List Operation) :
    s.after (operations ++ later) = (s.after operations).after later :=
  List.foldl_append

/-- Runs keep sessions faithful and leave the tables as they are. -/
theorem Session.Faithful.after {s : Session} (h : s.Faithful) (operations : List Operation) :
    (s.after operations).Faithful ∧ (s.after operations).data = s.data := by
  induction operations generalizing s with
  | nil => exact ⟨h, rfl⟩
  | cons operation rest ih =>
    obtain ⟨hfaithful, hdata⟩ := h.perform operation
    obtain ⟨hfaithful', hdata'⟩ := ih hfaithful
    exact ⟨hfaithful', hdata'.trans hdata⟩

/-- A faithful session that only answers queries forgets nothing, and views what it did before. -/
theorem Session.Faithful.grows_after {s : Session} (h : s.Faithful) {operations : List Operation}
    (hqueries : ∀ operation ∈ operations, operation.isQuery = true) :
    s.Grows (s.after operations) := by
  induction operations generalizing s with
  | nil => exact .refl s
  | cons operation rest ih =>
    obtain ⟨hquery, hrest⟩ := List.forall_mem_cons.1 hqueries
    obtain ⟨hgrows, hfaithful⟩ := (operation.steady hquery).keeps s h
    exact hgrows.trans (ih hfaithful hrest)

/-! ### What a session remembers after a run -/

/-- A faithful session views what a fresh one does. -/
theorem Session.Faithful.bare_eq_fresh {s : Session} (h : s.Faithful) :
    s.bare = fresh s.settings s.data s.notRequired := by
  rw [fresh, ← h.derived]
  rfl

/-- After every run, the items are those that the settings fix and every remembered answer is
recomputed from scratch under the current tables, settings and bosses. An answer that survives a
marking of bosses is recomputed under every choice of bosses. -/
theorem remembered_answers_recompute {settings : Settings} {data : GameData} {start : Session}
    (hstart : (Session.start settings data).1 = .ok start) (operations : List Operation) :
    let s := start.after operations
    s.predetermined = .derive s.settings ∧
    (∀ q a, s.cache.get? q = some a →
      (fresh s.settings data s.notRequired).Recomputes q a) ∧
    ∀ q a, (s.cache.invalidate .bossDependent).get? q = some a → ∀ notRequired,
      (fresh s.settings data notRequired).Recomputes q a := by
  intro s
  obtain ⟨hstarted, htables⟩ := Faithful.of_start hstart
  obtain ⟨hfaithful, hdata⟩ := hstarted.after operations
  have hview : s.bare = fresh s.settings data s.notRequired := by
    rw [← htables, ← hdata]
    exact hfaithful.bare_eq_fresh
  have hrecomputes (q : Question) (a : q.Answer) (ha : s.cache.get? q = some a) :
      (fresh s.settings data s.notRequired).Recomputes q a := by
    rw [← hview]
    exact hfaithful.recomputes ha
  refine ⟨hfaithful.derived, hrecomputes, fun q a ha notRequired => ?_⟩
  obtain ⟨hq, hget⟩ := Cache.get?_invalidate_bossDependent ha
  obtain ⟨depth, hdepth⟩ := hrecomputes q a hget
  refine ⟨depth, fun more hmore => ?_⟩
  rw [← hdepth more hmore]
  exact recompute_eq_of_not_isBossDependent (fresh s.settings data s.notRequired) notRequired
    more hq

/-- Tables with a chest whose requirement refers to the cellar and to a roof that does not exist. -/
def cellar : GameData where
  locations := .ofList [("Tower", .ofList [
    ("Cellar", { need := "Small Key x1" }),
    ("Chest", { need := "Can Access Item Location \"Tower - Cellar\" & " ++
      "Can Access Item Location \"Tower - Roof\"" })])]

theorem remembered_answers_recompute_cellar :
    (Session.start {} cellar).1 = .ok (initial {} cellar) ∧
    let s := (initial {} cellar).after [.requirementsForLocation "Tower" "Chest" false]
    (fresh s.settings cellar s.notRequired).Recomputes (.rawLocation "Tower" "Cellar" false)
      (.join .and [.leaf "Small Key x1"]) :=
  have hstart : (Session.start {} cellar).1 = .ok (initial {} cellar) :=
    start_of_validate {} rfl
  ⟨hstart, (remembered_answers_recompute hstart _).2.1 _ _ (by decide +kernel)⟩

end SeedLogic
