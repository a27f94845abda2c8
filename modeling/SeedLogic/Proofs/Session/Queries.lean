import SeedLogic.Proofs.Session.Outcomes

/-!
# What queries are made of

Every query is put together from few steps: it views the tables, the settings and the choice of
bosses, builds requirement texts, gives answers that it remembers, reports failures, and goes on
from results. A property of computations that these steps keep therefore holds of every query.
This is proved once here, so that no later module has to walk through the operations.

The first use is what a query may change. It only remembers answers and reports failures of the
tables. What the session views stays, and so does the log up to the reports at its end.

## Main definitions

* `Operation.isQuery` : the operations that only ask.
* `Stepwise`, `Compositional` : properties that the steps of a query keep.
* `OnlyReports` : computations that change nothing but the memory and report failures.

## Main results

* `Compositional.query` : such a property holds of every query.
* `Stepwise.compositional` : it suffices that remembering keeps the property.
* `Operation.onlyReports` : queries only report.
-/

namespace SeedLogic

open Requirement Session

variable {α β : Type}

/-- Whether an operation only asks, and asks for something else than what is remembered. -/
def Operation.isQuery : Operation → Bool
  | .updateSettings _ | .reset | .invalidate _ | .setBossRequired _ | .setBossNotRequired _ => false
  | .cachedEntries => false
  | _ => true

/-! ### Properties that queries have by their steps -/

/-- A property of computations in a session that holds of results, failures and views and is kept
by sequencing and reporting. -/
structure Stepwise (P : (α : Type) → Query α → Prop) : Prop where
  pure {α : Type} (a : α) : P α (pure a)
  throw {α : Type} (e : LogicError) : P α (throw e)
  bind {α β : Type} {x : Query α} {next : α → Query β} (hx : P α x) (hnext : ∀ a, P β (next a)) :
    P β (x >>= next)
  view : P Session Surroundings.session.view
  audited {α : Type} (operation : String) {x : Query α} (hx : P α x) : P α (audited operation x)

/-- A stepwise property that holds of answers and builds as well. -/
structure Compositional (P : (α : Type) → Query α → Prop) : Prop extends Stepwise P where
  answered (q : Question) : P q.Answer (answered q)
  rawTree (requirement : String) (flattened : Bool) :
    P Requirement (rawTree requirement flattened)

namespace Compositional

variable {P : (α : Type) → Query α → Prop}

section Steps

variable (h : Compositional P)

include h

theorem map (f : α → β) {x : Query α} (hx : P α x) : P β (f <$> x) := by
  rw [← bind_pure_comp]
  exact h.bind hx fun a => h.pure (f a)

theorem lift (result : Except LogicError α) : P α (liftM result) := by
  cases result with
  | error e => exact h.throw e
  | ok a => exact h.pure a

/-- Going on from the session is a step when it uses no more than what is viewed. -/
theorem viewing {next : Session → Query α} (hnext : ∀ s, P α (next s))
    (hbare : ∀ s, next s = next s.bare) : P α (do next (← get)) := by
  have hview : (do next (← get) : Query α) = Surroundings.session.view >>= next := by
    have hnext' : next = fun s => next s.bare := funext hbare
    exact congrArg (fun step => (do step (← get) : Query α)) hnext'
  rw [hview]
  exact h.bind h.view hnext

theorem locationTree (general detailed : String) (flattened : Bool) :
    P Requirement (locationTree general detailed flattened) := by
  rw [locationTree_eq_answered]
  exact h.answered (.location general detailed flattened)

theorem rawLocationTree (general detailed : String) (flattened : Bool) :
    P Requirement (rawLocationTree general detailed flattened) := by
  rw [rawLocationTree_eq_answered]
  exact h.answered (.rawLocation general detailed flattened)

theorem requirementsForEntrance (name : String) :
    P Requirement (requirementsForEntrance name) := by
  rw [requirementsForEntrance_eq_answered]
  exact h.audited _ (h.answered (.entrance name))

theorem smallKeysRequired (general detailed : String) :
    P UInt32 (smallKeysRequired general detailed) := by
  rw [smallKeysRequired_eq_answered]
  exact h.audited _ (h.answered (.smallKeys general detailed))

theorem isAvailableWithSmallKeys (general detailed : String) (count : UInt32)
    (held : String → Bool) : P Bool (isAvailableWithSmallKeys general detailed count held) :=
  h.viewing
    (fun s => h.bind (h.lift (s.data.smallKeyName general)) fun _ =>
      h.bind (h.audited _ (h.locationTree general detailed false)) fun _ => h.pure _)
    fun _ => rfl

/-- A property that the steps of a query keep holds of every query. -/
theorem query {operation : Operation} (hquery : operation.isQuery = true) :
    P Reply operation.query := by
  cases operation with
  | updateSettings | reset | invalidate | setBossRequired | setBossNotRequired | cachedEntries =>
    exact absurd hquery (by simp [Operation.isQuery])
  | requirementsForLocation general detailed flattened =>
    exact h.map _ (h.audited _ (h.locationTree general detailed flattened))
  | rawRequirementsForLocation general detailed flattened =>
    exact h.map _ (h.audited _ (h.rawLocationTree general detailed flattened))
  | requirementsForEntrance entrance => exact h.map _ (h.requirementsForEntrance entrance)
  | buildRequirement requirement flattened =>
    exact h.map _ (h.audited _ (h.bind (h.rawTree requirement flattened) fun raw => h.pure _))
  | smallKeysRequired general detailed =>
    exact h.bind (h.smallKeysRequired general detailed) fun count => h.pure _
  | isAvailableWithSmallKeys general detailed count held =>
    exact h.map _ (h.isAvailableWithSmallKeys general detailed count held)
  | allRandomEntrances => exact h.map _ (h.answered .allRandomEntrances)
  | randomEntrancesForExit exit => exact h.map _ (h.audited _ (h.answered (.entrancesForExit exit)))
  | randomExitsForEntrance entrance =>
    exact h.map _ (h.audited _ (h.answered (.exitsForEntrance entrance)))
  | nestedEntrancesForExit exit => exact h.map _ (h.answered (.nestedEntrances exit))
  | islandForChart chart => exact h.map _ (h.answered (.chartIsland chart))
  | vanillaChartForIsland island =>
    exact h.map _ (h.audited _ (h.answered (.vanillaChart island)))
  | anyProgressItemCharts => exact h.map _ (h.answered .anyProgressCharts)
  | islandHasProgressItemChart island => exact h.map _ (h.answered (.islandHasProgressChart island))
  | allCharts includeNonProgress => exact h.map _ (h.answered (.chartList includeNonProgress))
  | prettyNameForItem item count => exact h.map _ (h.answered (.itemName item count))
  | prettyNameForItemRequirement requirement =>
    exact h.map _ (h.answered (.itemRequirementName requirement))
  | maxSmallKeys dungeon =>
    exact h.viewing (fun s => h.bind (h.lift (s.maxSmallKeys dungeon)) fun count => h.pure _)
      fun _ => rfl
  | _ =>
    -- The rest views the session and gives a value, or a value that may be missing.
    first
      | exact h.viewing (fun s => h.pure _) fun _ => rfl
      | exact h.viewing (fun s => h.map _ (h.lift _)) fun _ => rfl

end Steps

end Compositional

/-! ### Properties that remembering keeps -/

/-- A property as a relation in which the second computation plays no part. -/
def Alone (P : (α : Type) → Query α → Prop) (α : Type) (x : Query α)
    (_ : Unit → Query α) : Prop :=
  P α x

namespace Stepwise

variable {P : (α : Type) → Query α → Prop} (h : Stepwise P)

include h

private theorem related : Surroundings.Related (Alone P) Surroundings.session fun _ =>
    Surroundings.session where
  pure := h.pure
  throw := h.throw
  bind := h.bind
  view := h.view
  report := fun operation _ _ hx => h.audited operation hx
  refuse := fun _ _ => h.throw _

variable (hremember : ∀ (q : Question) {x : Query q.Answer}, P q.Answer x →
  P q.Answer (remember q x))

include hremember

private theorem expand (depth : Nat) (flattened : Bool) (atom : String) :
    Alone P Requirement (Surroundings.session.expand depth flattened atom) fun _ =>
      Surroundings.session.expand depth flattened atom := by
  induction depth generalizing flattened atom with
  | zero => exact h.related.expand_zero (fun _ => 0) flattened atom
  | succ depth ih => exact h.related.expand_succ ih (fun q => hremember q) flattened atom

/-- A stepwise property that remembering keeps holds of expansions. -/
theorem expandAtom (depth : Nat) (flattened : Bool) (atom : String) :
    P Requirement (expandAtom depth flattened atom) := by
  rw [← Surroundings.expand_session]
  exact h.expand hremember depth flattened atom

/-- A stepwise property that remembering keeps, whatever is computed, is compositional. -/
theorem compositional : Compositional P where
  toStepwise := h
  answered q := hremember q
    (h.related.answer (h.expand hremember maxExpansionDepth) (fun q => hremember q) q)
  rawTree requirement flattened := by
    rw [Session.rawTree, ← Surroundings.expand_session]
    exact h.related.toSequential.buildWith (h.expand hremember maxExpansionDepth flattened)
      requirement

end Stepwise

/-! ### Queries only remember and report -/

/-- Whether an event reports a failure. -/
def AuditEvent.isReport : AuditEvent → Bool
  | .dataIntegrityError .. => true
  | _ => false

/-- The computation leaves what the session views as it is, and adds nothing to the log but
reports of failures. -/
def OnlyReports (α : Type) (x : Query α) : Prop :=
  ∀ s : Session, (s.outcome x).2.bare = s.bare ∧
    ∃ reports : List AuditEvent, (∀ event ∈ reports, event.isReport = true) ∧
      (s.outcome x).2.events = s.events ++ reports

private theorem onlyReports_stepwise : Stepwise OnlyReports where
  pure := by
    intro α a s
    exact ⟨rfl, [], by simp⟩
  throw := by
    intro α e s
    exact ⟨rfl, [], by simp⟩
  bind := by
    intro α β x next hx hnext s
    obtain ⟨hview, reports, hreports, hevents⟩ := hx s
    rw [outcome_bind]
    rcases houtcome : s.outcome x with ⟨_ | a, t⟩ <;> rw [houtcome] at hview hevents
    · exact ⟨hview, reports, hreports, hevents⟩
    · obtain ⟨hview', reports', hreports', hevents'⟩ := hnext a t
      refine ⟨hview'.trans hview, reports ++ reports', fun event hmem => ?_, ?_⟩
      · exact (List.mem_append.1 hmem).elim (hreports event) (hreports' event)
      · rw [hevents', hevents, List.append_assoc]
  view := by
    intro s
    exact ⟨rfl, [], by simp⟩
  audited := by
    intro α operation x hx s
    obtain ⟨hview, reports, hreports, hevents⟩ := hx s
    rw [outcome_audited]
    rcases houtcome : s.outcome x with ⟨e | a, t⟩ <;> rw [houtcome] at hview hevents
    · refine ⟨hview, reports ++ [.dataIntegrityError operation e.message],
        fun event hmem => ?_, ?_⟩
      · rcases List.mem_append.1 hmem with hmem | hmem
        · exact hreports event hmem
        · rw [List.mem_singleton.1 hmem]
          rfl
      · rw [events_recording, hevents, List.append_assoc]
    · exact ⟨hview, reports, hreports, hevents⟩

private theorem onlyReports_remember (q : Question) {x : Query q.Answer}
    (hx : OnlyReports q.Answer x) : OnlyReports q.Answer (remember q x) := by
  intro s
  cases hget : s.cache.get? q with
  | some answer =>
    rw [outcome_remember_of_some x hget]
    exact ⟨rfl, [], by simp⟩
  | none =>
    obtain ⟨hview, reports, hreports, hevents⟩ := hx s
    rw [outcome_remember_of_none x hget]
    rcases houtcome : s.outcome x with ⟨_ | answer, t⟩ <;> rw [houtcome] at hview hevents
    · exact ⟨hview, reports, hreports, hevents⟩
    · exact ⟨hview, reports, hreports, hevents⟩

/-- Expansions only report. -/
theorem onlyReports_expandAtom (depth : Nat) (flattened : Bool) (atom : String) :
    OnlyReports Requirement (expandAtom depth flattened atom) :=
  onlyReports_stepwise.expandAtom onlyReports_remember depth flattened atom

/-- What a query is made of only reports. -/
theorem onlyReports_compositional : Compositional OnlyReports :=
  onlyReports_stepwise.compositional onlyReports_remember

/-- Queries only remember answers and report failures. -/
theorem Operation.onlyReports {operation : Operation} (hquery : operation.isQuery = true) :
    OnlyReports Reply operation.query :=
  onlyReports_compositional.query hquery

end SeedLogic
