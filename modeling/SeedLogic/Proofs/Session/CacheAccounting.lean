import Mathlib.Data.List.Perm.Subperm
import SeedLogic.Proofs.Session.BossMarks

/-!
# The accounting of remembered answers

A session tells how many answers it remembers, and it records how many answers each invalidation
drops. Both numbers are sums over tables of the cache, but over different tables. They fit together:
each question belongs to one table, so that the number of remembered answers just before an
invalidation is the number of those that it drops and those that stay. An invalidation of all
answers leaves none, and an invalidation of the answers that depend on bosses leaves exactly those
about pools, charts and names.

Every other operation, whether it fails or not, keeps what was remembered before it. A query may
remember many answers, also when it fails later, but none in place of an answer that it has found.

## Main definitions

* `Session.invalidations` : the invalidations in a log.
* `Operation.clears?` : the answers that an operation forgets.
* `Session.clearings` : the invalidations that the operations of a run call for.

## Main results

* `Cache.dropped_add_size_invalidate` : what an invalidation drops and what it leaves.
* `Operation.invalidations_perform`, `Operation.cache_of_clears?`,
  `Operation.remembers_of_clears?_eq_none` : one operation.
* `Session.invalidations_after` : the invalidations of a run.
* `cache_accounting` : counts, events and answers after every run.
-/

namespace SeedLogic

open Session

/-! ### Tables -/

namespace Question

/-- The answers about requirement trees and small keys are those that depend on bosses. -/
theorem table_mem_ofBosses_iff (q : Question) :
    q.table ∈ CacheTable.ofBosses ↔ q.isBossDependent = true := by
  cases q <;> simp [table, CacheTable.ofBosses, isBossDependent]

/-- The answers about pools, charts and names are all the others. -/
theorem table_mem_lasting_iff (q : Question) :
    q.table ∈ CacheTable.lasting ↔ q.isBossDependent = false := by
  cases q <;> simp [table, CacheTable.lasting, isBossDependent]

end Question

/-- Numbers of entries that pass one of two tests which no entry passes both. -/
private theorem countP_or {α : Type} {p q : α → Bool} (l : List α)
    (h : ∀ a, p a = true → q a = false) :
    l.countP (fun a => p a || q a) = l.countP p + l.countP q := by
  induction l with
  | nil => rfl
  | cons a rest ih =>
    rw [List.countP_cons, List.countP_cons, List.countP_cons, ih]
    cases hp : p a with
    | false => simp [Nat.add_assoc]
    | true =>
      simp only [h a hp, Bool.true_or, if_true, Bool.false_eq_true, if_false]
      omega

namespace Cache

theorem sizeIn_append (c : Cache) (tables others : List CacheTable) :
    c.sizeIn (tables ++ others) = c.sizeIn tables + c.sizeIn others := by
  induction tables with
  | nil => exact (Nat.zero_add _).symm
  | cons table rest ih => rw [List.cons_append, sizeIn, sizeIn, ih, Nat.add_assoc]

/-- The sizes of different tables add up to the number of answers in them. -/
theorem sizeIn_eq_countP (c : Cache) {tables : List CacheTable} (h : tables.Nodup) :
    c.sizeIn tables = c.entries.countP (·.1.table ∈ tables) := by
  induction tables with
  | nil => simp [sizeIn]
  | cons table rest ih =>
    obtain ⟨htable, hrest⟩ := List.nodup_cons.1 h
    have hsplit := countP_or (p := fun entry => entry.1.table = table)
      (q := fun entry => entry.1.table ∈ rest) c.entries fun entry hentry => by
        simpa [of_decide_eq_true hentry] using htable
    rw [sizeIn, ih hrest, tableSize, ← hsplit]
    exact List.countP_congr fun entry _ => by simp

/-- The sizes of all tables add up to the number of entries. -/
theorem size_eq_length (c : Cache) : c.size = c.entries.length := by
  rw [size, sizeIn_eq_countP c (by decide), List.countP_eq_length]
  intro entry _
  rw [decide_eq_true_iff, List.mem_append, Question.table_mem_ofBosses_iff,
    Question.table_mem_lasting_iff]
  cases entry.1.isBossDependent <;> simp

/-- What an invalidation drops and what it leaves are all answers remembered before it. -/
theorem dropped_add_size_invalidate (c : Cache) (scope : InvalidationScope) :
    c.dropped scope + (c.invalidate scope).size = c.size := by
  cases scope with
  | all =>
    have hnone : (c.invalidate .all).size = 0 := rfl
    rw [hnone, dropped, size, sizeIn_append, Nat.add_zero]
  | bossDependent =>
    rw [dropped, sizeIn_eq_countP c (by decide), size_eq_length, size_eq_length, invalidate,
      filter, ← List.countP_eq_length_filter,
      List.length_eq_countP_add_countP fun entry => entry.1.isBossDependent]
    refine congrArg₂ (· + ·) (List.countP_congr fun entry _ => ?_)
      (List.countP_congr fun entry _ => ?_)
    · rw [decide_eq_true_iff, Question.table_mem_ofBosses_iff]
    · simp

/-- What is remembered after an invalidation: nothing, or the answers about pools, charts and names
that were remembered before it. -/
theorem get?_invalidate (c : Cache) (scope : InvalidationScope) (q : Question) :
    (c.invalidate scope).get? q =
      match scope with
      | .all => none
      | .bossDependent => if q.table ∈ CacheTable.lasting then c.get? q else none := by
  cases scope with
  | all => rfl
  | bossDependent => simp only [invalidate, get?_filter, Question.table_mem_lasting_iff,
      Bool.not_eq_true']

/-- The questions that are listed are those whose answer is remembered. -/
theorem mem_questions_iff {c : Cache} {q : Question} :
    q ∈ c.entries.map Sigma.fst ↔ (c.get? q).isSome = true := by
  rw [get?]
  generalize c.entries = entries
  induction entries with
  | nil => simp [lookup]
  | cons entry rest ih =>
    obtain ⟨asked, answer⟩ := entry
    rw [List.map_cons, List.mem_cons, ih, lookup]
    by_cases h : asked = q
    · simp [h]
    · simp [h, Ne.symm h]

/-- A cache that remembers no less has no fewer entries. -/
theorem size_le_of_remembers {c d : Cache}
    (h : ∀ q answer, c.get? q = some answer → d.get? q = some answer) : c.size ≤ d.size := by
  have hsubset : c.entries.map Sigma.fst ⊆ d.entries.map Sigma.fst := by
    intro q hq
    obtain ⟨answer, hanswer⟩ := Option.isSome_iff_exists.1 (mem_questions_iff.1 hq)
    exact mem_questions_iff.2 (Option.isSome_iff_exists.2 ⟨answer, h q answer hanswer⟩)
  have hlength := (List.subperm_of_subset c.distinct hsubset).length_le
  rwa [List.length_map, List.length_map, ← size_eq_length, ← size_eq_length] at hlength

end Cache

/-! ### One operation -/

/-- Whether an event tells of an invalidation. -/
def AuditEvent.isInvalidation : AuditEvent → Bool
  | .cacheInvalidated .. => true
  | _ => false

/-- The invalidations in the log, in order. -/
def Session.invalidations (s : Session) : List AuditEvent :=
  s.events.filter (·.isInvalidation)

namespace Operation

/-- The answers that an operation forgets if it succeeds. -/
def scope? : Operation → Option InvalidationScope
  | .updateSettings _ | .reset => some .all
  | .invalidate scope => some scope
  | .setBossRequired _ | .setBossNotRequired _ => some .bossDependent
  | _ => none

/-- The answers that an operation forgets in a session. -/
def clears? (operation : Operation) (s : Session) : Option InvalidationScope :=
  if (operation.perform s).1.isOk then operation.scope? else none

variable {operation : Operation} {s : Session} {scope : InvalidationScope}

/-- A toggle of a boss forgets the answers that depend on bosses if the dungeon has a boss, and else
leaves the session as it is. -/
private theorem clears?_of_toggle? {dungeon : String} {required : Bool}
    (h : operation.toggle? = some (dungeon, required)) (s : Session) :
    operation.clears? s = some .bossDependent ∧
        (operation.perform s).2 = s.marking dungeon required ∨
      operation.clears? s = none ∧ (operation.perform s).2 = s := by
  have hscope : operation.scope? = some .bossDependent := by
    cases operation <;> first | rfl | cases h
  rw [clears?, perform_of_toggle? h, hscope]
  cases s.data.bossRequirement dungeon with
  | error e => exact Or.inr ⟨rfl, rfl⟩
  | ok requirement => exact Or.inl ⟨rfl, rfl⟩

/-- An operation records the invalidation that it makes, and no other one. -/
theorem invalidations_perform (operation : Operation) (s : Session) :
    (operation.perform s).2.invalidations = s.invalidations ++
      match operation.clears? s with
      | some scope => [.cacheInvalidated scope (s.cache.dropped scope)]
      | none => [] := by
  obtain ⟨reports, hreports, hevents⟩ := operation.events_perform s
  have hnone : reports.filter (·.isInvalidation) = [] := by
    refine List.filter_eq_nil_iff.2 fun event hevent => ?_
    cases event <;> first | exact Bool.false_ne_true | cases hreports _ hevent
  have hrecorded : (operation.recorded s).filter (·.isInvalidation) =
      match operation.scope? with
      | some scope => [.cacheInvalidated scope (s.cache.dropped scope)]
      | none => [] := by
    cases operation <;> rfl
  rw [invalidations, hevents, List.filter_append, List.filter_append, hnone, List.append_nil,
    clears?]
  cases (operation.perform s).1.isOk with
  | false => rfl
  | true => exact congrArg (s.invalidations ++ ·) hrecorded

/-- An operation that forgets answers leaves the cache that its scope says. -/
theorem cache_of_clears? (h : operation.clears? s = some scope) :
    (operation.perform s).2.cache = s.cache.invalidate scope := by
  have hscope : operation.scope? = some scope := by
    rw [clears?] at h
    split at h
    · exact h
    · cases h
  have hmarked {dungeon : String} {required : Bool}
      (htoggle : operation.toggle? = some (dungeon, required)) :
      (operation.perform s).2.cache = s.cache.invalidate scope := by
    rcases clears?_of_toggle? htoggle s with ⟨hclears, hperform⟩ | ⟨hclears, -⟩ <;>
      rw [hclears] at h <;> cases h
    rw [hperform]
    rfl
  cases operation with
  | updateSettings | reset | invalidate =>
    cases hscope
    rfl
  | setBossRequired | setBossNotRequired => exact hmarked rfl
  | _ => cases hscope

/-- An operation that forgets no answers keeps all of them. -/
theorem remembers_of_clears?_eq_none (hs : s.Faithful) (h : operation.clears? s = none)
    {q : Question} {answer : q.Answer} (hanswer : s.cache.get? q = some answer) :
    (operation.perform s).2.cache.get? q = some answer := by
  by_cases hquery : operation.isQuery = true
  · exact ((operation.steady hquery).keeps s hs).1.remembers q answer hanswer
  · have hfails {dungeon : String} {required : Bool}
        (htoggle : operation.toggle? = some (dungeon, required)) :
        (operation.perform s).2.cache.get? q = some answer := by
      rcases clears?_of_toggle? htoggle s with ⟨hclears, -⟩ | ⟨-, hperform⟩
      · rw [hclears] at h
        cases h
      · rw [hperform, hanswer]
    cases operation with
    | updateSettings | reset | invalidate => cases h
    | cachedEntries => exact hanswer
    | setBossRequired | setBossNotRequired => exact hfails rfl
    | _ => exact absurd rfl hquery

/-- An invalidation drops the difference between the numbers of answers before and after it. -/
theorem dropped_of_clears? (h : operation.clears? s = some scope) :
    s.cache.dropped scope = s.cache.size - (operation.perform s).2.cache.size := by
  rw [cache_of_clears? h, ← s.cache.dropped_add_size_invalidate scope, Nat.add_sub_cancel]

end Operation

/-! ### Runs -/

/-- The invalidations that the operations of a run call for, in order, each with the difference
between the numbers of answers before and after it. -/
def Session.clearings (s : Session) : List Operation → List AuditEvent
  | [] => []
  | operation :: rest =>
    let t := (operation.perform s).2
    match operation.clears? s with
    | some scope => .cacheInvalidated scope (s.cache.size - t.cache.size) :: t.clearings rest
    | none => t.clearings rest

/-- A run records the invalidations that its operations call for, in order. -/
theorem Session.invalidations_after (s : Session) (operations : List Operation) :
    (s.after operations).invalidations = s.invalidations ++ s.clearings operations := by
  induction operations generalizing s with
  | nil => exact (List.append_nil s.invalidations).symm
  | cons operation rest ih =>
    have hrest : (s.after (operation :: rest)).invalidations =
        (operation.perform s).2.invalidations ++ (operation.perform s).2.clearings rest :=
      ih _
    rw [hrest, operation.invalidations_perform, List.append_assoc, clearings]
    cases hclears : operation.clears? s with
    | some scope =>
      simp only [Operation.dropped_of_clears? hclears]
      rfl
    | none => rfl

/-- After every run, a session tells how many answers it remembers, and every invalidation in its
log records the difference between the numbers before and after it. An invalidation of all answers
leaves none, one of the answers that depend on bosses leaves exactly those about pools, charts and
names, and any other operation, also one that fails, keeps every answer. -/
theorem cache_accounting {settings : Settings} {data : GameData} {start : Session}
    (hstart : (Session.start settings data).1 = .ok start) (operations : List Operation) :
    let s := start.after operations
    Operation.cachedEntries.perform s = (.ok (.count s.cache.size), s) ∧
    s.invalidations = start.clearings operations ∧
    ∀ operation : Operation,
      let t := (operation.perform s).2
      (∀ scope, operation.clears? s = some scope →
        t.cache.size ≤ s.cache.size ∧
        (scope = .all → t.cache.size = 0) ∧
        ∀ q, t.cache.get? q =
          match scope with
          | .all => none
          | .bossDependent => if q.table ∈ CacheTable.lasting then s.cache.get? q else none) ∧
      (operation.clears? s = none →
        s.cache.size ≤ t.cache.size ∧
        ∀ q answer, s.cache.get? q = some answer → t.cache.get? q = some answer) := by
  intro s
  have hnone : start.invalidations = [] := by
    cases hstart.symm.trans (start_of_validate settings (validate_of_start hstart))
    rfl
  refine ⟨rfl, ?_, fun operation => ⟨fun scope hclears => ?_, fun hclears => ?_⟩⟩
  · rw [invalidations_after, hnone, List.nil_append]
  · rw [Operation.cache_of_clears? hclears]
    refine ⟨?_, ?_, s.cache.get?_invalidate scope⟩
    · rw [← s.cache.dropped_add_size_invalidate scope]
      exact Nat.le_add_left _ _
    · rintro rfl
      rfl
  · have hfaithful : s.Faithful := ((Faithful.of_start hstart).1.after operations).1
    have hremembers (q : Question) (answer : q.Answer) (h : s.cache.get? q = some answer) :
        (operation.perform s).2.cache.get? q = some answer :=
      Operation.remembers_of_clears?_eq_none hfaithful hclears h
    exact ⟨Cache.size_le_of_remembers hremembers, hremembers⟩

/-- A query that fails remembers an answer, which an invalidation of the answers that depend on
bosses forgets. -/
theorem cache_accounting_cellar :
    (Session.start {} cellar).1 = .ok (initial {} cellar) ∧
    let s := (initial {} cellar).after
      [.requirementsForLocation "Tower" "Chest" false, .allRandomEntrances]
    let t := ((Operation.invalidate .bossDependent).perform s).2
    (s.cache.size, t.cache.size) = (2, 1) ∧
    t.cache.get? (.rawLocation "Tower" "Cellar" false) = none ∧
    t.cache.get? .allRandomEntrances = s.cache.get? .allRandomEntrances :=
  have hstart : (Session.start {} cellar).1 = .ok (initial {} cellar) :=
    start_of_validate {} rfl
  have ⟨_, _, hoperations⟩ := cache_accounting hstart
    [.requirementsForLocation "Tower" "Chest" false, .allRandomEntrances]
  have ⟨_, _, hget⟩ := (hoperations (.invalidate .bossDependent)).1 .bossDependent rfl
  ⟨hstart, by decide +kernel, (hget _).trans (if_neg (by decide)),
    (hget _).trans (if_pos (by decide))⟩

end SeedLogic
