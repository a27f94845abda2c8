import Mathlib.Control.Monad.Basic
import SeedLogic.Proofs.Session.Runs

/-!
# Earlier queries and later answers

A query has the same answer after every run as in a session that has just started with the same
tables, settings and bosses, success and failure alike, except that the fresh session may refuse
what it has to expand too deep. The exception cannot be dropped: a remembered location does not
count towards the depth, so asking for it first makes a refused query succeed. Nothing else can
differ. Two faithful sessions with the same tables, settings and bosses can be merged, and both
agree with the merged one, so neither answers a query differently unless one of them refuses it.

## Main definitions

* `Cache.merge`, `Session.merge` : what two sessions remember together.
* `relay` : tables with a requirement at the limit of the depth.

## Main results

* `query_answer_eq_fresh_or_refused` : queries after a run and in a fresh session.
* `relay_answer_ne_fresh` : a query that only a fresh session refuses.
* `Session.Faithful.same_answer_or_refused` : queries in two faithful sessions.
-/

namespace SeedLogic

open Session

/-! ### Fresh sessions -/

/-- What a fresh session remembers is remembered by every faithful session that views the same. -/
theorem Session.Faithful.grows_fresh {s : Session} (h : s.Faithful) :
    (fresh s.settings s.data s.notRequired).Grows s where
  view := h.bare_eq_fresh
  remembers q answer hget := by cases hget

/-- After every run, a query has the answer that it has in a fresh session with the same tables,
settings and bosses, unless the fresh session refuses it since expansions nest too deep. -/
theorem query_answer_eq_fresh_or_refused {settings : Settings} {data : GameData} {start : Session}
    (hstart : (Session.start settings data).1 = .ok start) (operations : List Operation)
    {operation : Operation} (hquery : operation.isQuery = true) :
    let s := start.after operations
    let first := fresh s.settings data s.notRequired
    (operation.perform s).1 = (operation.perform first).1 ∨
      ∃ atom, (operation.perform first).1 = .error (.nestingTooDeep atom maxExpansionDepth) := by
  intro s first
  obtain ⟨hstarted, htables⟩ := Faithful.of_start hstart
  obtain ⟨hfaithful, hdata⟩ := hstarted.after operations
  have hgrows : first.Grows s := by
    have h := hfaithful.grows_fresh
    rwa [hdata, htables] at h
  rcases (operation.steady hquery).agrees first s hgrows hfaithful with
    ⟨atom, t, hrefused⟩ | ⟨result, s', t', hfirst, hlater, -⟩
  · exact Or.inr ⟨atom, congrArg Prod.fst hrefused⟩
  · exact Or.inl ((congrArg Prod.fst hlater).trans (congrArg Prod.fst hfirst).symm)

/-! ### A query at the limit of the depth -/

/-- The macro at a place of the chain in `relay`. -/
def relayStep (i : Nat) : String := "Step " ++ Text.decimal i

/-- Tables with a chain of 63 macros that ends in a chest, whose requirement is a macro again. The
places have two digits, so that the names are in order. -/
def relay : GameData where
  macros := .ofList <|
    (relayStep 72, "Can Access Item Location \"Tower - Chest\"") ::
      (List.range' 10 62).reverse.map (fun i => (relayStep i, relayStep (i + 1))) ++
      [("Key Door", "Small Key x1")]
  locations := .ofList [("Tower", .ofList [("Chest", { need := "Key Door" })])]

theorem query_answer_eq_fresh_or_refused_relay :
    (Session.start {} relay).1 = .ok (initial {} relay) ∧
    let s := (initial {} relay).after [.rawRequirementsForLocation "Tower" "Chest" false]
    let first := fresh s.settings relay s.notRequired
    let operation := Operation.requirementsForLocation "Tower" "Chest" true
    (operation.perform s).1 = (operation.perform first).1 ∨
      ∃ atom, (operation.perform first).1 = .error (.nestingTooDeep atom maxExpansionDepth) :=
  have hstart : (Session.start {} relay).1 = .ok (initial {} relay) :=
    start_of_validate {} (by decide +kernel)
  ⟨hstart, query_answer_eq_fresh_or_refused hstart _ rfl⟩

/-- A fresh session refuses to expand the requirement of the chest through all macros. Once the
chest has been asked for, the same query succeeds. -/
theorem relay_answer_ne_fresh :
    (Session.start {} relay).1 = .ok (initial {} relay) ∧
    let s := (initial {} relay).after [.rawRequirementsForLocation "Tower" "Chest" false]
    let operation := Operation.buildRequirement (relayStep 10) false
    (operation.perform (fresh s.settings relay s.notRequired)).1 =
      .error (.nestingTooDeep "Key Door" maxExpansionDepth) ∧
    (operation.perform s).1 = .ok (.tree (.leaf "Small Key x1")) :=
  ⟨start_of_validate {} (by decide +kernel), by decide +kernel⟩

/-! ### Two sessions -/

/-- The answers in two caches, where those in the second one count first. -/
def Cache.merge (c d : Cache) : Cache :=
  d.entries.foldr (fun entry c => c.insert entry.1 entry.2) c

theorem Cache.get?_merge (c d : Cache) (q : Question) :
    (c.merge d).get? q = (d.get? q).or (c.get? q) := by
  obtain ⟨entries, distinct⟩ := d
  simp only [merge, get?]
  clear distinct
  induction entries with
  | nil => rfl
  | cons entry rest ih =>
    obtain ⟨asked, answer⟩ := entry
    by_cases h : asked = q
    · subst h
      simp [lookup, insert]
    · rw [lookup, dif_neg h, ← ih]
      exact get?_insert_of_ne _ answer (Ne.symm h)

/-- The session that remembers what either of two sessions does. -/
def Session.merge (s t : Session) : Session := { s with cache := s.cache.merge t.cache }

section Merge

variable {s t : Session} (hs : s.Faithful) (ht : t.Faithful) (hview : t.bare = s.bare)

include hs ht hview

/-- Two faithful sessions that view the same remember no different answers. -/
theorem Session.Faithful.eq_of_get? {q : Question} {a b : q.Answer}
    (ha : s.cache.get? q = some a) (hb : t.cache.get? q = some b) : a = b := by
  have hsettled := ht.settled q b hb
  rw [hview] at hsettled
  exact (hs.settled q a ha).unique hsettled

theorem Session.Faithful.grows_merge_left : s.Grows (s.merge t) where
  view := rfl
  remembers q a ha := by
    cases hb : t.cache.get? q with
    | none => simp [Session.merge, Cache.get?_merge, ha, hb]
    | some b =>
      obtain rfl := hs.eq_of_get? ht hview ha hb
      simp [Session.merge, Cache.get?_merge, hb]

omit hs ht in
theorem Session.grows_merge_right : t.Grows (s.merge t) where
  view := hview.symm
  remembers q b hb := by simp [Session.merge, Cache.get?_merge, hb]

theorem Session.Faithful.merge : (s.merge t).Faithful where
  derived := hs.derived
  settled q a ha := by
    rw [Session.merge, Cache.get?_merge, Option.or_eq_some_iff] at ha
    rcases ha with hb | ⟨-, ha⟩
    · have hsettled := (ht.settled q a hb).mono fun _ => (grows_merge_right hview).knows
      rwa [hview] at hsettled
    · exact (hs.settled q a ha).mono fun _ => (hs.grows_merge_left ht hview).knows

/-- Two faithful sessions that view the same give a query the same answer, unless one of them
refuses it since expansions nest too deep. -/
theorem Session.Faithful.same_answer_or_refused {operation : Operation}
    (hquery : operation.isQuery = true) :
    (operation.perform s).1 = (operation.perform t).1 ∨
      s.Refuses operation.query ∨ t.Refuses operation.query := by
  have hmerged := hs.merge ht hview
  have hagrees := (operation.steady hquery).agrees
  rcases hagrees s (s.merge t) (hs.grows_merge_left ht hview) hmerged with
    hrefuses | ⟨result, s', u, hs', hu, -⟩
  · exact Or.inr (Or.inl hrefuses)
  rcases hagrees t (s.merge t) (grows_merge_right hview) hmerged with
    hrefuses | ⟨result', t', u', ht', hu', -⟩
  · exact Or.inr (Or.inr hrefuses)
  · have hsame : result = result' := congrArg Prod.fst (hu.symm.trans hu')
    exact Or.inl ((congrArg Prod.fst hs').trans (hsame.trans (congrArg Prod.fst ht').symm))

end Merge

end SeedLogic
