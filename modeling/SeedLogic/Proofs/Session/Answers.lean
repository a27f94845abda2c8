import SeedLogic.Proofs.Requirement.Building
import SeedLogic.Session.Operation

/-!
# Answers and their surroundings

The answer to a remembered question is one computation, whatever it runs in: it views the tables,
the settings and the choice of bosses, recalls the answers to other questions, reports the outcome
of an audited operation, and is refused an expansion that nests too deep. A session provides these
by its cache and its log and refuses at a fixed depth. A recomputation has neither memory nor limit:
what it recalls it computes again, and an expansion beyond the given depth leaves it without a
result.

## Main definitions

* `Surroundings` : what answers need from where they are computed.
* `Surroundings.answer` : the computation of the answer to a question.
* `Surroundings.session` : answers computed in a session.
* `Session.recompute`, `Session.Recomputes` : answers computed from scratch.

## Main results

* `Surroundings.expand_session` : a session expands atoms in this way.
* `Surroundings.Related.answer` : related surroundings give related answers.
-/

namespace SeedLogic

open Requirement Session

/-- What the computation of an answer needs from where it runs. -/
structure Surroundings (m : Type → Type) where
  /-- A session with the tables, the settings and the choice of bosses. -/
  view : ExceptT LogicError m Session
  /-- Gives the answer to a question that is computed in the given way. -/
  ask : (q : Question) → ExceptT LogicError m q.Answer → ExceptT LogicError m q.Answer
  /-- Reports the outcome of the named operation. -/
  report : {α : Type} → String → ExceptT LogicError m α → ExceptT LogicError m α
  /-- Refuses to expand an atom. -/
  refuse : String → ExceptT LogicError m Requirement

namespace Surroundings

variable {m : Type → Type} [Monad m] (w : Surroundings m)

section Computations

variable (expand : Bool → String → ExceptT LogicError m Requirement)

/-- The unsimplified tree of a location. -/
def rawLocation (general detailed : String) (flattened : Bool) :
    ExceptT LogicError m Requirement := do
  let s ← w.view
  let entry ← s.data.locationEntry general detailed
  buildWith (expand flattened) entry.need

/-- The tree that an expansion stands for. -/
def unfold (flattened : Bool) : Resolution.Expansion → ExceptT LogicError m Requirement
  | .tree r => pure r
  | .requirement text => buildWith (expand flattened) text
  | .location general detailed flattened =>
    w.ask (.rawLocation general detailed flattened)
      (w.rawLocation expand general detailed flattened)

/-- The tree that replaces an atom, which is finished at once or else obtained as given. -/
def expandBy (beyond : Resolution.Expansion → ExceptT LogicError m Requirement)
    (flattened : Bool) (atom : String) : ExceptT LogicError m Requirement := do
  let s ← w.view
  match ← s.resolution.expansion flattened atom with
  | .tree r => pure r
  | expansion => beyond expansion

/-- The simplified tree of a location. -/
def location (general detailed : String) (flattened : Bool) :
    ExceptT LogicError m Requirement := do
  let raw ← w.ask (.rawLocation general detailed flattened)
    (w.rawLocation expand general detailed flattened)
  pure (simplified raw)

/-- The simplified tree of an entrance. -/
def entrance (name : String) : ExceptT LogicError m Requirement := do
  let s ← w.view
  let macroName ← s.data.macroNameOfEntrance name
  let raw ← buildWith (expand false) macroName
  pure (simplified raw)

/-- The least number of small keys that a location needs. -/
def smallKeys (general detailed : String) : ExceptT LogicError m UInt32 := do
  let s ← w.view
  let maximum ← s.maxSmallKeys general
  let key ← s.data.smallKeyName general
  let requirements ← w.ask (.location general detailed false)
    (w.location expand general detailed false)
  match requirements.minimumKeys key maximum with
  | some count => pure count
  | none => throw (.smallKeysUnsatisfiable general detailed)

end Computations

/-- The tree that replaces an atom when expansions may nest `depth` more levels. -/
def expand : Nat → Bool → String → ExceptT LogicError m Requirement
  | 0, flattened, atom => w.expandBy (fun _ => w.refuse atom) flattened atom
  | depth + 1, flattened, atom =>
    w.expandBy (w.unfold (expand depth) flattened) flattened atom

/-- How an expansion goes on that is not finished at once. -/
def deeper : Nat → Bool → String → Resolution.Expansion → ExceptT LogicError m Requirement
  | 0, _, atom, _ => w.refuse atom
  | depth + 1, flattened, _, expansion => w.unfold (w.expand depth) flattened expansion

theorem expand_eq_expandBy (depth : Nat) (flattened : Bool) (atom : String) :
    w.expand depth flattened atom =
      w.expandBy (w.deeper depth flattened atom) flattened atom := by
  cases depth <;> rfl

/-- Whether charts of some kind may lead to progress items. -/
def anyProgressCharts : ExceptT LogicError m Bool := do
  let s ← w.view
  pure (s.settings.isEnabled (progressOption .treasure) ||
    s.settings.isEnabled (progressOption .triforce))

/-- The chart that leads to an island when charts are not shuffled. -/
def vanillaChart (island : String) : ExceptT LogicError m VanillaChart := do
  let s ← w.view
  s.data.vanillaChart island

/-- Whether the chart of an island may lead to a progress item. -/
def islandHasProgressChart (island : String) : ExceptT LogicError m Bool := do
  let s ← w.view
  if s.settings.isEnabled OptionName.randomizeCharts then
    w.ask .anyProgressCharts w.anyProgressCharts
  else do
    let chart ← w.report "vanilla_chart_for_island"
      (w.ask (.vanillaChart island) (w.vanillaChart island))
    pure (s.settings.isEnabled (progressOption chart.kind))

/-- The names of all numbered charts, or only of those that may lead to progress items. -/
def chartList (includeNonProgress : Bool) : ExceptT LogicError m (List String) := do
  let s ← w.view
  let shown (kind : ChartKind) := includeNonProgress || s.settings.isEnabled (progressOption kind)
  let treasure :=
    ChartName.numbered "Treasure Chart " (s.data.charts.length - ChartName.triforceCount)
  let triforce := ChartName.numbered "Triforce Chart " ChartName.triforceCount
  pure ((if shown .treasure then treasure else []) ++ if shown .triforce then triforce else [])

/-- The computation of the answer to a question when expansions may nest `depth` levels. -/
def answer (depth : Nat) : (q : Question) → ExceptT LogicError m q.Answer
  | .rawLocation general detailed flattened =>
    w.rawLocation (w.expand depth) general detailed flattened
  | .location general detailed flattened => w.location (w.expand depth) general detailed flattened
  | .entrance name => w.entrance (w.expand depth) name
  | .smallKeys general detailed => w.smallKeys (w.expand depth) general detailed
  | .allRandomEntrances => do pure (← w.view).pools.allNames
  | .entrancesForExit exit => do (← w.view).pools.entrancesForExit exit
  | .exitsForEntrance entrance => do (← w.view).pools.exitsForEntrance entrance
  | .nestedEntrances exit => do pure ((← w.view).pools.nestedBehind exit)
  | .chartList includeNonProgress => w.chartList includeNonProgress
  | .anyProgressCharts => w.anyProgressCharts
  | .islandHasProgressChart island => w.islandHasProgressChart island
  | .chartIsland chart => do pure ((← w.view).data.islandOfChart? chart)
  | .vanillaChart island => w.vanillaChart island
  | .itemName item count => do pure ((← w.view).itemDisplayName item count)
  | .itemRequirementName requirement => do
    pure ((← w.view).requirementDisplayName requirement)

end Surroundings

/-- The session without what it remembers and has recorded. -/
def Session.bare (s : Session) : Session := { s with cache := .empty, log := [] }

/-! ### Answers in a session -/

/-- Answers computed in a session: its cache recalls them and its log reports failures. -/
def Surroundings.session : Surroundings SessionM where
  view := do pure (← get).bare
  ask := remember
  report := audited
  refuse atom := throw (.nestingTooDeep atom maxExpansionDepth)

/-- In a session, atoms are expanded as answers expand them. -/
theorem Surroundings.expand_session (depth : Nat) :
    Surroundings.session.expand depth = expandAtom depth := by
  induction depth with
  | zero => rfl
  | succ depth ih =>
    funext flattened atom
    rw [Surroundings.expand, ih]
    -- Both sides view the session and expand the atom; they part only on the kind of expansion.
    have hunfold : (fun expansion : Resolution.Expansion =>
        match expansion with
        | .tree r => (pure r : Query Requirement)
        | expansion => Surroundings.session.unfold (expandAtom depth) flattened expansion) =
        fun expansion =>
          match expansion with
          | .tree r => pure r
          | .requirement text => buildWith (expandAtom depth flattened) text
          | .location general detailed flattened =>
            rawLocationWith (expandAtom depth) general detailed flattened := by
      funext expansion
      cases expansion <;> rfl
    exact congrArg (fun next => (do
      let s : Session ← get
      let expansion ← s.resolution.expansion flattened atom
      next expansion : Query Requirement)) hunfold

namespace Session

/-- The answer to a question, from the cache or else computed and remembered. -/
def answered (q : Question) : Query q.Answer :=
  remember q (Surroundings.session.answer maxExpansionDepth q)

variable (general detailed : String) (flattened : Bool)

theorem rawLocationTree_eq_answered :
    rawLocationTree general detailed flattened =
      answered (.rawLocation general detailed flattened) := by
  rw [rawLocationTree, ← Surroundings.expand_session]
  rfl

theorem locationTree_eq_answered :
    locationTree general detailed flattened =
      answered (.location general detailed flattened) := by
  rw [locationTree, rawLocationTree, ← Surroundings.expand_session]
  rfl

theorem requirementsForEntrance_eq_answered (name : String) :
    requirementsForEntrance name =
      audited "requirements_for_entrance" (answered (.entrance name)) := by
  unfold requirementsForEntrance rawTree
  rw [← Surroundings.expand_session]
  rfl

theorem smallKeysRequired_eq_answered :
    smallKeysRequired general detailed =
      audited "small_keys_required_for_location" (answered (.smallKeys general detailed)) := by
  rw [smallKeysRequired, locationTree_eq_answered]
  rfl

end Session

/-! ### Answers from scratch -/

/-- Answers computed without memory from what a session views. Too deep an expansion has no
result. -/
def Surroundings.plain (view : Session) : Surroundings Option where
  view := pure view
  ask _ answer := answer
  report _ outcome := outcome
  refuse _ := ExceptT.mk none

/-- The answer to a question computed from scratch, without any remembered answer, when expansions
may nest `depth` levels; none if they nest deeper. -/
def Session.recompute (s : Session) (depth : Nat) (q : Question) :
    Option (Except LogicError q.Answer) :=
  ((Surroundings.plain s.bare).answer depth q).run

/-- The recomputation from scratch reaches the answer at every depth that is large enough. -/
def Session.Recomputes (s : Session) (q : Question) (a : q.Answer) : Prop :=
  ∃ depth, ∀ more, depth ≤ more → s.recompute more q = some (.ok a)

/-! ### Related surroundings -/

namespace Surroundings

variable {m n : Type → Type} [Monad m] [Monad n] {ι : Type}

/-- Surroundings and a family of surroundings that view the same and report alike. What is
refused is related to everything. -/
structure Related
    (R : (α : Type) → ExceptT LogicError m α → (ι → ExceptT LogicError n α) → Prop)
    (w : Surroundings m) (w' : ι → Surroundings n) : Prop extends Sequential R where
  view : R Session w.view fun i => (w' i).view
  report {α : Type} (operation : String) {x : ExceptT LogicError m α}
    {y : ι → ExceptT LogicError n α} (hxy : R α x y) :
    R α (w.report operation x) fun i => (w' i).report operation (y i)
  refuse (atom : String) (y : ι → ExceptT LogicError n Requirement) :
    R Requirement (w.refuse atom) y

namespace Related

variable {R : (α : Type) → ExceptT LogicError m α → (ι → ExceptT LogicError n α) → Prop}
  {w : Surroundings m} {w' : ι → Surroundings n} (h : Related R w w')

include h

/-- Related surroundings finish an atom alike and go on in related ways. -/
theorem expandBy {beyond : Resolution.Expansion → ExceptT LogicError m Requirement}
    {beyond' : ι → Resolution.Expansion → ExceptT LogicError n Requirement}
    (hbeyond : ∀ expansion, R Requirement (beyond expansion) fun i => beyond' i expansion)
    (flattened : Bool) (atom : String) :
    R Requirement (w.expandBy beyond flattened atom) fun i =>
      (w' i).expandBy (beyond' i) flattened atom := by
  refine h.bind h.view fun s => h.bind (h.lift _) fun expansion => ?_
  cases expansion with
  | tree r => exact h.pure r
  | requirement text => exact hbeyond (.requirement text)
  | location general detailed flattened => exact hbeyond (.location general detailed flattened)

/-- Without a level left, an atom is finished alike or refused. -/
theorem expand_zero (depth' : ι → Nat) (flattened : Bool) (atom : String) :
    R Requirement (w.expand 0 flattened atom) fun i =>
      (w' i).expand (depth' i) flattened atom := by
  simp only [expand_eq_expandBy]
  exact h.expandBy (fun _ => h.refuse atom _) flattened atom

section Depth

variable {depth : Nat} {depth' : ι → Nat}
  (hexpand : ∀ flattened atom, R Requirement (w.expand depth flattened atom) fun i =>
    (w' i).expand (depth' i) flattened atom)
  (hask : ∀ q, (R q.Answer (w.answer depth q) fun i => (w' i).answer (depth' i) q) →
    R q.Answer (w.ask q (w.answer depth q)) fun i =>
      (w' i).ask q ((w' i).answer (depth' i) q))

include hexpand

private theorem rawLocation (general detailed : String) (flattened : Bool) :
    R Requirement (w.rawLocation (w.expand depth) general detailed flattened) fun i =>
      (w' i).rawLocation ((w' i).expand (depth' i)) general detailed flattened :=
  h.bind h.view fun s => h.bind (h.lift (s.data.locationEntry general detailed)) fun entry =>
    h.buildWith (hexpand flattened) entry.need

private theorem entrance (name : String) :
    R Requirement (w.entrance (w.expand depth) name) fun i =>
      (w' i).entrance ((w' i).expand (depth' i)) name :=
  h.bind h.view fun s => h.bind (h.lift (s.data.macroNameOfEntrance name)) fun macroName =>
    h.bind (h.buildWith (hexpand false) macroName) fun raw => h.pure (simplified raw)

include hask

/-- One more level on both sides keeps expansions related. -/
theorem expand_succ (flattened : Bool) (atom : String) :
    R Requirement (w.expand (depth + 1) flattened atom) fun i =>
      (w' i).expand (depth' i + 1) flattened atom := by
  refine h.expandBy (fun expansion => ?_) flattened atom
  cases expansion with
  | tree r => exact h.pure r
  | requirement text => exact h.buildWith (hexpand flattened) text
  | location general detailed flattened =>
    exact hask (.rawLocation general detailed flattened)
      (h.rawLocation hexpand general detailed flattened)

private theorem location (general detailed : String) (flattened : Bool) :
    R Requirement (w.location (w.expand depth) general detailed flattened) fun i =>
      (w' i).location ((w' i).expand (depth' i)) general detailed flattened :=
  h.bind
    (hask (.rawLocation general detailed flattened)
      (h.rawLocation hexpand general detailed flattened))
    fun raw => h.pure (simplified raw)

private theorem smallKeys (general detailed : String) :
    R UInt32 (w.smallKeys (w.expand depth) general detailed) fun i =>
      (w' i).smallKeys ((w' i).expand (depth' i)) general detailed := by
  refine h.bind h.view fun s => h.bind (h.lift (s.maxSmallKeys general)) fun maximum =>
    h.bind (h.lift (s.data.smallKeyName general)) fun key =>
      h.bind (hask (.location general detailed false)
        (h.location hexpand hask general detailed false)) fun requirements => ?_
  cases requirements.minimumKeys key maximum with
  | none => exact h.throw _
  | some count => exact h.pure count

omit hexpand in
private theorem islandHasProgressChart (island : String) :
    R Bool (w.islandHasProgressChart island) fun i => (w' i).islandHasProgressChart island := by
  have hany : R Bool w.anyProgressCharts fun i => (w' i).anyProgressCharts :=
    h.bind h.view fun s => h.pure _
  have hvanilla : R VanillaChart (w.vanillaChart island) fun i => (w' i).vanillaChart island :=
    h.bind h.view fun s => h.lift (s.data.vanillaChart island)
  refine h.bind h.view fun s => ?_
  by_cases hshuffled : s.settings.isEnabled OptionName.randomizeCharts = true
  · simp only [if_pos hshuffled]
    exact hask .anyProgressCharts hany
  · simp only [if_neg hshuffled]
    exact h.bind (h.report _ (hask (.vanillaChart island) hvanilla)) fun chart => h.pure _

/-- Related surroundings give related answers to every question. -/
theorem answer (q : Question) :
    R q.Answer (w.answer depth q) fun i => (w' i).answer (depth' i) q := by
  cases q with
  | rawLocation general detailed flattened =>
    exact h.rawLocation hexpand general detailed flattened
  | location general detailed flattened =>
    exact h.location hexpand hask general detailed flattened
  | entrance name => exact h.entrance hexpand name
  | smallKeys general detailed => exact h.smallKeys hexpand hask general detailed
  | islandHasProgressChart island => exact h.islandHasProgressChart hask island
  | entrancesForExit exit => exact h.bind h.view fun s => h.lift (s.pools.entrancesForExit exit)
  | exitsForEntrance entrance =>
    exact h.bind h.view fun s => h.lift (s.pools.exitsForEntrance entrance)
  | vanillaChart island => exact h.bind h.view fun s => h.lift (s.data.vanillaChart island)
  | _ => exact h.bind h.view fun s => h.pure _

end Depth

end Related

end Surroundings

end SeedLogic
