import SeedLogic.Proofs.Session.Outcomes

/-!
# The counter of nested expansions

Expansions may be limited by a counter instead of a number of levels that are left. It is raised
while an atom is expanded that stands for a text, an atom is refused once the counter has reached
the limit, and the counter is set back afterwards, whatever has come of the expansion. The
recursion itself is then bounded by nothing but the counter, so that it has to be shown to return.
Nested expansions raise the counter, the atoms of one text leave it as it was, and the texts are
finite: a call stack that is higher than the limit by one is enough for every query. Each query
then has the same outcome as with levels, and the counter ends where it began, after a result and
after an error.

## Main definitions

* `Counting` : computations in a session with a counter, which may not return.
* `Counting.nested`, `Counting.expand` : expansions under the counter.
* `Operation.counting`, `Counting.after` : operations and runs under the counter.
* `Counting.Restores` : a computation has the outcome of a query and sets the counter back.

## Main results

* `Counting.restores_expand` : expansions with a counter are those with levels.
* `Counting.restores_counting` : every operation returns and sets the counter back.
* `Counting.after_eq` : so does every run.
-/

namespace SeedLogic

open Requirement Session

variable {α β : Type}

/-- Computations in a session with a counter of nested expansions, which may not return. -/
abbrev Counting := StateT Nat (StateT Session Option)

namespace Counting

/-! ### Computations with a counter -/

/-- What becomes of a computation that may fail, with the counter and the session afterwards. -/
def outcome (depth : Nat) (s : Session) (computation : ExceptT LogicError Counting α) :
    Option ((Except LogicError α × Nat) × Session) :=
  (computation.run.run depth).run s

/-- A query that leaves the counter alone. -/
def ofQuery (query : Query α) : ExceptT LogicError Counting α :=
  ExceptT.mk fun depth s => some (((s.outcome query).1, depth), (s.outcome query).2)

/-- The computation that does not return. -/
def diverge : ExceptT LogicError Counting α :=
  ExceptT.mk fun _ _ => none

/-- Expands an atom one level deeper, unless the limit is reached. The counter is set back whether
the expansion fails or not. -/
def nested (atom : String) (expansion : ExceptT LogicError Counting Requirement) :
    ExceptT LogicError Counting Requirement :=
  ExceptT.mk do
    let depth ← getThe Nat
    if maxExpansionDepth ≤ depth then
      pure (.error (.nestingTooDeep atom maxExpansionDepth))
    else do
      set (depth + 1)
      let result ← expansion.run
      set depth
      pure result

/-- Answers computed in a session with a counter: its cache recalls them and its log reports
failures. -/
def surroundings : Surroundings Counting where
  view := do pure (← getThe Session).bare
  ask q compute := do
    match (← getThe Session).cache.get? q with
    | some answer => pure answer
    | none => do
      let answer ← compute
      modifyThe Session (·.remembering q answer)
      pure answer
  report operation query := ExceptT.mk do
    let result ← query.run
    match result with
    | .error e => modifyThe Session (·.recording (.dataIntegrityError operation e.message))
    | .ok _ => pure ()
    pure result
  refuse atom := throw (.nestingTooDeep atom maxExpansionDepth)

/-- The tree that replaces an atom. Only the height of the call stack bounds the recursion. -/
def expand : Nat → Bool → String → ExceptT LogicError Counting Requirement
  | 0, _, _ => diverge
  | fuel + 1, flattened, atom =>
    surroundings.expandBy
      (fun expansion => nested atom (surroundings.unfold (expand fuel) flattened expansion))
      flattened atom

/-- The computation of the answer to a question under the counter. -/
def answer (fuel : Nat) : (q : Question) → ExceptT LogicError Counting q.Answer
  | .rawLocation general detailed flattened =>
    surroundings.rawLocation (expand fuel) general detailed flattened
  | .location general detailed flattened =>
    surroundings.location (expand fuel) general detailed flattened
  | .entrance name => surroundings.entrance (expand fuel) name
  | .smallKeys general detailed => surroundings.smallKeys (expand fuel) general detailed
  | q => ofQuery (Surroundings.session.answer maxExpansionDepth q)

/-- The answer to a question, from the cache or else computed and remembered. -/
def answered (fuel : Nat) (q : Question) : ExceptT LogicError Counting q.Answer :=
  surroundings.ask q (answer fuel q)

end Counting

open Counting in
/-- The computation that answers an operation under the counter. Only requirements need it. -/
def Operation.counting (fuel : Nat) : Operation → ExceptT LogicError Counting Reply
  | .requirementsForLocation general detailed flattened => do
    let t ← surroundings.report "requirements_for_location"
      (answered fuel (.location general detailed flattened))
    pure (.tree t)
  | .rawRequirementsForLocation general detailed flattened => do
    let t ← surroundings.report "raw_requirements_for_location"
      (answered fuel (.rawLocation general detailed flattened))
    pure (.tree t)
  | .requirementsForEntrance entrance => do
    let t ← surroundings.report "requirements_for_entrance" (answered fuel (.entrance entrance))
    pure (.tree t)
  | .buildRequirement requirement flattened => do
    let t ← surroundings.report "build_requirement" do
      let raw ← buildWith (expand fuel flattened) requirement
      pure (simplified raw)
    pure (.tree t)
  | .smallKeysRequired general detailed => do
    let count ← surroundings.report "small_keys_required_for_location"
      (answered fuel (.smallKeys general detailed))
    pure (.count count.toNat)
  | .isAvailableWithSmallKeys general detailed count held => do
    let key ← (← getThe Session).data.smallKeyName general
    let requirements ← surroundings.report "requirements_for_location"
      (answered fuel (.location general detailed false))
    pure (.flag (requirements.availableWithKeys key count held))
  | operation => ofQuery operation.query

namespace Counting

/-- The counter and the session after a list of operations, if all of them return. -/
def after (fuel : Nat) : Nat → Session → List Operation → Option (Nat × Session)
  | depth, s, [] => some (depth, s)
  | depth, s, operation :: rest =>
    match outcome depth s (operation.counting fuel) with
    | some ((_, depth'), t) => after fuel depth' t rest
    | none => none

/-! ### Computations that set the counter back -/

/-- A computation that starts with the counter at `depth` has the outcome of a query, and the
counter is at `depth` afterwards. -/
def Restores (depth : Nat) (query : Query α) (computation : ExceptT LogicError Counting α) : Prop :=
  ∀ s, outcome depth s computation = some (((s.outcome query).1, depth), (s.outcome query).2)

theorem outcome_bind (depth : Nat) (s : Session) (computation : ExceptT LogicError Counting α)
    (next : α → ExceptT LogicError Counting β) :
    outcome depth s (computation >>= next) =
      match outcome depth s computation with
      | some ((.ok a, depth'), t) => outcome depth' t (next a)
      | some ((.error e, depth'), t) => some ((.error e, depth'), t)
      | none => none := by
  have h : outcome depth s (computation >>= next) =
      (outcome depth s computation).bind fun ((result, depth'), t) =>
        (ExceptT.bindCont next result).run depth' |>.run t := rfl
  rw [h]
  rcases outcome depth s computation with _ | ⟨⟨_ | _, depth'⟩, t⟩ <;> rfl

namespace Restores

variable {depth : Nat} {q : Question}

theorem pure (a : α) : Restores depth (Pure.pure a) (Pure.pure a) := fun _ => rfl

theorem throw (e : LogicError) :
    Restores depth (MonadExcept.throw e : Query α) (MonadExcept.throw e) := fun _ => rfl

theorem lift (result : Except LogicError α) : Restores depth (liftM result) (liftM result) := by
  cases result with
  | error e => exact throw e
  | ok a => exact pure a

theorem bind {query : Query α} {computation : ExceptT LogicError Counting α}
    {next : α → Query β} {next' : α → ExceptT LogicError Counting β}
    (h : Restores depth query computation) (hnext : ∀ a, Restores depth (next a) (next' a)) :
    Restores depth (query >>= next) (computation >>= next') := by
  intro s
  rw [outcome_bind, h, Session.outcome_bind]
  rcases s.outcome query with ⟨e | a, t⟩
  · rfl
  · exact hnext a t

theorem ofQuery (query : Query α) : Restores depth query (ofQuery query) := fun _ => rfl

theorem state : Restores depth (get : Query Session) (getThe Session) := fun _ => rfl

theorem view : Restores depth Surroundings.session.view surroundings.view := fun _ => rfl

/-- What is remembered on one side is remembered on the other. -/
theorem ask {query : Query q.Answer} {computation : ExceptT LogicError Counting q.Answer}
    (h : Restores depth query computation) :
    Restores depth (Surroundings.session.ask q query) (surroundings.ask q computation) := by
  intro s
  have hrecall : outcome depth s (surroundings.ask q computation) =
      outcome depth s (match s.cache.get? q with
        | some answer => Pure.pure answer
        | none => do
          let answer ← computation
          modifyThe Session (·.remembering q answer)
          Pure.pure answer) := rfl
  show _ = some (((s.outcome (remember q query)).1, depth), (s.outcome (remember q query)).2)
  rw [hrecall]
  cases hget : s.cache.get? q with
  | some answer =>
    rw [outcome_remember_of_some query hget]
    rfl
  | none =>
    rw [outcome_remember_of_none query hget]
    refine (outcome_bind depth s computation _).trans ?_
    rw [h]
    rcases s.outcome query with ⟨e | answer, t⟩ <;> rfl

/-- What is reported on one side is reported on the other. -/
theorem report (operation : String) {query : Query α}
    {computation : ExceptT LogicError Counting α} (h : Restores depth query computation) :
    Restores depth (Surroundings.session.report operation query)
      (surroundings.report operation computation) := by
  intro s
  have hreport : outcome depth s (surroundings.report operation computation) =
      (outcome depth s computation).bind fun ((result, depth'), t) =>
        match result with
        | .ok a => some ((.ok a, depth'), t)
        | .error e =>
          some ((.error e, depth'), t.recording (.dataIntegrityError operation e.message)) := by
    have hbind : outcome depth s (surroundings.report operation computation) =
        (outcome depth s computation).bind fun ((result, depth'), t) =>
          (StateT.run (do
            match result with
            | .error e => modifyThe Session (·.recording (.dataIntegrityError operation e.message))
            | .ok _ => Pure.pure ()
            Pure.pure result : Counting (Except LogicError α)) depth').run t := rfl
    rw [hbind]
    refine congrArg _ (funext fun ⟨⟨result, depth'⟩, t⟩ => ?_)
    cases result <;> rfl
  show _ = some (((s.outcome (audited operation query)).1, depth),
    (s.outcome (audited operation query)).2)
  rw [hreport, h, outcome_audited]
  rcases s.outcome query with ⟨e | a, t⟩ <;> rfl

private theorem outcome_nested (s : Session) (atom : String)
    (expansion : ExceptT LogicError Counting Requirement) :
    outcome depth s (Counting.nested atom expansion) =
      if maxExpansionDepth ≤ depth then
        some ((.error (.nestingTooDeep atom maxExpansionDepth), depth), s)
      else (outcome (depth + 1) s expansion).map fun ((result, _), t) => ((result, depth), t) := by
  have h : outcome depth s (Counting.nested atom expansion) =
      (StateT.run (if maxExpansionDepth ≤ depth then
          Pure.pure (.error (.nestingTooDeep atom maxExpansionDepth))
        else do
          set (depth + 1)
          let result ← expansion.run
          set depth
          Pure.pure result : Counting (Except LogicError Requirement)) depth).run s := rfl
  rw [h]
  split
  · rfl
  · rw [Option.map_eq_bind]
    rfl

/-- An expansion that goes one level deeper sets the counter back whatever comes of it. -/
theorem nested {atom : String} {query : Query Requirement}
    {expansion : ExceptT LogicError Counting Requirement} (hdepth : depth < maxExpansionDepth)
    (h : Restores (depth + 1) query expansion) :
    Restores depth query (Counting.nested atom expansion) := by
  intro s
  rw [outcome_nested, if_neg (Nat.not_le.2 hdepth), h]
  rfl

/-- At the limit an atom is refused, and the counter stays. -/
theorem refused {atom : String} {expansion : ExceptT LogicError Counting Requirement}
    (hdepth : maxExpansionDepth ≤ depth) :
    Restores depth (Surroundings.session.refuse atom) (Counting.nested atom expansion) := by
  intro s
  rw [outcome_nested, if_pos hdepth]
  rfl

end Restores

/-! ### Expansions and answers -/

section Answers

variable {depth : Nat} {expand : Bool → String → Query Requirement}
  {expand' : Bool → String → ExceptT LogicError Counting Requirement}
  (hexpand : ∀ flattened atom, Restores depth (expand flattened atom) (expand' flattened atom))

/-- Texts whose atoms are expanded alike are built alike. -/
theorem Restores.buildWith {expand : String → Query Requirement}
    {expand' : String → ExceptT LogicError Counting Requirement}
    (hexpand : ∀ atom, Restores depth (expand atom) (expand' atom)) (text : String) :
    Restores depth (Requirement.buildWith expand text) (Requirement.buildWith expand' text) := by
  have hsequential : Sequential fun α (query : Query α)
      (computation : Unit → ExceptT LogicError Counting α) =>
        Restores depth query (computation ()) :=
    { pure := fun a => .pure a
      throw := fun e => .throw e
      bind := fun h hnext => h.bind hnext }
  exact @Sequential.buildWith _ _ _ _ _ _ hsequential expand (fun _ => expand') hexpand text

include hexpand

private theorem restores_rawLocation (general detailed : String) (flattened : Bool) :
    Restores depth (Surroundings.session.rawLocation expand general detailed flattened)
      (surroundings.rawLocation expand' general detailed flattened) :=
  Restores.view.bind fun _ => (Restores.lift _).bind fun entry =>
    .buildWith (hexpand flattened) entry.need

private theorem restores_unfold (flattened : Bool) (expansion : Resolution.Expansion) :
    Restores depth (Surroundings.session.unfold expand flattened expansion)
      (surroundings.unfold expand' flattened expansion) := by
  cases expansion with
  | tree r => exact .pure r
  | requirement text => exact .buildWith (hexpand flattened) text
  | location general detailed flattened =>
    exact .ask (restores_rawLocation hexpand general detailed flattened)

private theorem restores_location (general detailed : String) (flattened : Bool) :
    Restores depth (Surroundings.session.location expand general detailed flattened)
      (surroundings.location expand' general detailed flattened) :=
  (Restores.ask (restores_rawLocation hexpand general detailed flattened)).bind fun _ => .pure _

private theorem restores_entrance (name : String) :
    Restores depth (Surroundings.session.entrance expand name)
      (surroundings.entrance expand' name) :=
  Restores.view.bind fun _ => (Restores.lift _).bind fun macroName =>
    (Restores.buildWith (hexpand false) macroName).bind fun _ => .pure _

private theorem restores_smallKeys (general detailed : String) :
    Restores depth (Surroundings.session.smallKeys expand general detailed)
      (surroundings.smallKeys expand' general detailed) := by
  refine Restores.view.bind fun _ => (Restores.lift _).bind fun maximum =>
    (Restores.lift _).bind fun key =>
      (Restores.ask (restores_location hexpand general detailed false)).bind fun requirements => ?_
  cases requirements.minimumKeys key maximum with
  | none => exact .throw _
  | some count => exact .pure count

end Answers

/-- An atom is finished alike on both sides, or its expansion goes on alike. -/
private theorem restores_expandBy {depth : Nat} {beyond : Resolution.Expansion → Query Requirement}
    {beyond' : Resolution.Expansion → ExceptT LogicError Counting Requirement}
    (hbeyond : ∀ expansion, Restores depth (beyond expansion) (beyond' expansion))
    (flattened : Bool) (atom : String) :
    Restores depth (Surroundings.session.expandBy beyond flattened atom)
      (surroundings.expandBy beyond' flattened atom) := by
  refine Restores.view.bind fun _ => (Restores.lift _).bind fun expansion => ?_
  cases expansion with
  | tree r => exact .pure r
  | requirement text => exact hbeyond (.requirement text)
  | location general detailed flattened => exact hbeyond (.location general detailed flattened)

/-- With the counter `levels` below the limit, an atom is expanded as with `levels` levels left. A
call stack of one more than these levels is enough. -/
theorem restores_expand {fuel levels depth : Nat} (hfuel : levels < fuel)
    (hdepth : depth + levels = maxExpansionDepth) (flattened : Bool) (atom : String) :
    Restores depth (Surroundings.session.expand levels flattened atom)
      (expand fuel flattened atom) := by
  -- What the counter gains from one level to the next, the levels that are left lose.
  induction levels generalizing fuel depth flattened atom with
  | zero =>
    obtain ⟨fuel, rfl⟩ := Nat.exists_eq_add_one_of_ne_zero (Nat.ne_of_gt hfuel)
    exact restores_expandBy (fun _ => .refused (by omega)) flattened atom
  | succ levels ih =>
    obtain ⟨fuel, rfl⟩ := Nat.exists_eq_add_one_of_ne_zero (Nat.ne_of_gt (Nat.zero_lt_of_lt hfuel))
    have hdeeper (flattened : Bool) (atom : String) :
        Restores (depth + 1) (Surroundings.session.expand levels flattened atom)
          (expand fuel flattened atom) := ih (by omega) (by omega) flattened atom
    refine restores_expandBy (fun expansion => ?_) flattened atom
    exact .nested (by omega) (restores_unfold hdeeper flattened expansion)

variable {fuel : Nat} (hfuel : maxExpansionDepth < fuel)

include hfuel

/-- Every question is answered under the counter as it is with levels. -/
theorem restores_answered (q : Question) :
    Restores 0 (Session.answered q) (answered fuel q) := by
  have hexpand := restores_expand hfuel (Nat.zero_add maxExpansionDepth)
  refine Restores.ask ?_
  cases q with
  | rawLocation general detailed flattened =>
    exact restores_rawLocation hexpand general detailed flattened
  | location general detailed flattened =>
    exact restores_location hexpand general detailed flattened
  | entrance name => exact restores_entrance hexpand name
  | smallKeys general detailed => exact restores_smallKeys hexpand general detailed
  | _ => exact .ofQuery _

/-- Every operation has the outcome of its query under the counter, and sets the counter back. -/
theorem restores_counting (operation : Operation) :
    Restores 0 operation.query (operation.counting fuel) := by
  cases operation with
  | requirementsForLocation general detailed flattened =>
    have h := restores_answered hfuel (.location general detailed flattened)
    rw [Operation.query, Session.requirementsForLocation, locationTree_eq_answered,
      ← bind_pure_comp]
    exact (h.report "requirements_for_location").bind fun _ => .pure _
  | rawRequirementsForLocation general detailed flattened =>
    have h := restores_answered hfuel (.rawLocation general detailed flattened)
    rw [Operation.query, Session.rawRequirementsForLocation, rawLocationTree_eq_answered,
      ← bind_pure_comp]
    exact (h.report "raw_requirements_for_location").bind fun _ => .pure _
  | requirementsForEntrance entrance =>
    have h := restores_answered hfuel (.entrance entrance)
    rw [Operation.query, requirementsForEntrance_eq_answered, ← bind_pure_comp]
    exact (h.report "requirements_for_entrance").bind fun _ => .pure _
  | buildRequirement requirement flattened =>
    have hexpand := restores_expand hfuel (Nat.zero_add maxExpansionDepth) flattened
    have h := (Restores.buildWith hexpand requirement).bind fun raw => .pure (simplified raw)
    rw [Operation.query, Session.buildRequirement, rawTree, ← Surroundings.expand_session,
      ← bind_pure_comp]
    exact (h.report "build_requirement").bind fun _ => .pure _
  | smallKeysRequired general detailed =>
    have h := restores_answered hfuel (.smallKeys general detailed)
    rw [Operation.query, smallKeysRequired_eq_answered]
    exact (h.report "small_keys_required_for_location").bind fun _ => .pure _
  | isAvailableWithSmallKeys general detailed count held =>
    have h := restores_answered hfuel (.location general detailed false)
    rw [Operation.query, Session.isAvailableWithSmallKeys, ← bind_pure_comp]
    simp only [bind_assoc, pure_bind, Session.requirementsForLocation, locationTree_eq_answered]
    exact Restores.state.bind fun _ => (Restores.lift _).bind fun _ =>
      (h.report "requirements_for_location").bind fun _ => .pure _
  | _ => exact .ofQuery _

/-- Every operation returns under the counter, with the outcome that it has without, and sets the
counter back. -/
theorem outcome_counting (operation : Operation) (s : Session) :
    outcome 0 s (operation.counting fuel) =
      some (((operation.perform s).1, 0), (operation.perform s).2) :=
  restores_counting hfuel operation s

/-- Every run returns under the counter, in the session in which it ends without, and the counter is
where it was. -/
theorem after_eq (s : Session) (operations : List Operation) :
    after fuel 0 s operations = some (0, s.after operations) := by
  induction operations generalizing s with
  | nil => rfl
  | cons operation operations ih =>
    rw [after, outcome_counting hfuel]
    exact ih (operation.perform s).2

end Counting

end SeedLogic
