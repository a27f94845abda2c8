import SeedLogic.Proofs.Requirement.Leaves
import SeedLogic.Proofs.Requirement.Meaning

/-!
# The questions of an evaluation

Which leaves an evaluation asks about depends on the answers to its earlier questions: a node stops
at the first operand that decides it. Value and questions are therefore described together, by a
transcript. Every choice of held leaves that agrees with the given one on the leaves of the
transcript answers all of its questions alike, so it is asked the same ones and comes to the same
value. Transcripts follow the sequence of a computation, and those of an evaluation follow the tree.

An evaluation that goes through every operand asks about all item requirements of the tree, and
comes to the same value.

## Main definitions

* `Requirement.asked` : the leaves on which the value of a tree rests.
* `Requirement.evaluateEveryM` : evaluation of all operands.
* `Requirement.Transcript` : the questions and the value of a computation.

## Main results

* `Requirement.transcript_evaluateM` : the transcript of an evaluation.
* `Requirement.transcript_evaluateEveryM` : the transcript of an evaluation of all operands.
* `Requirement.asked_sublist_items` : the questions stand in the tree, in their order.
* `Requirement.evaluation_depends_on_asked` : evaluation depends only on the leaves it asks about.
-/

namespace SeedLogic.Requirement

variable {held : String → Bool} {connective : Connective}

/-! ### Questions and complete evaluation -/

mutual

/-- The leaves on which the value of the tree rests, from left to right. -/
def asked (held : String → Bool) : Requirement → List String
  | .leaf text => items (.leaf text)
  | .all operands => askedUntil held .and operands
  | .any operands => askedUntil held .or operands

/-- The leaves of the operands up to the first one that decides their node. -/
def askedUntil (held : String → Bool) (connective : Connective) : List Requirement → List String
  | [] => []
  | r :: rs =>
    asked held r ++
      if evaluate held r = connective.decisive then [] else askedUntil held connective rs

end

section

variable {m : Type → Type} [Monad m] (ask : String → m Bool)

mutual

/-- Evaluates the tree from left to right, all operands of a node whatever their values. -/
def evaluateEveryM : Requirement → m Bool
  | .leaf text => evaluateM ask (.leaf text)
  | .all operands => do return (← valuesM operands).all id
  | .any operands => do return (← valuesM operands).any id

/-- The values of all operands. -/
def valuesM : List Requirement → m (List Bool)
  | [] => pure []
  | r :: rs => do return (← evaluateEveryM r) :: (← valuesM rs)

end

/-- A leaf that is no terminal is asked about. -/
theorem evaluateM_leaf_of_isTerminal_eq_false {text : String} (h : isTerminal text = false) :
    evaluateM ask (.leaf text) = ask text := by
  obtain ⟨hnothing, himpossible⟩ := Bool.or_eq_false_iff.1 h
  rw [evaluateM, if_neg (of_decide_eq_false hnothing), if_neg (of_decide_eq_false himpossible)]

/-- A terminal is evaluated without a question. -/
theorem evaluateM_leaf_of_isTerminal (held : String → Bool) {text : String}
    (h : isTerminal text = true) :
    evaluateM ask (.leaf text) = pure (evaluate held (.leaf text)) := by
  rw [isTerminal, Bool.or_eq_true, decide_eq_true_iff, decide_eq_true_iff] at h
  rcases h with rfl | rfl <;> rfl

/-- A node without operands is undecided. -/
theorem evaluateM_join_nil : evaluateM ask (join connective []) = pure (!connective.decisive) := by
  cases connective <;> rfl

/-- A node stops at the first operand that decides it. -/
theorem evaluateM_join_cons (r : Requirement) (rs : List Requirement) :
    evaluateM ask (join connective (r :: rs)) = evaluateM ask r >>= fun value =>
      if value = connective.decisive then pure value else evaluateM ask (join connective rs) := by
  cases connective
  all_goals
    refine congrArg (evaluateM ask r >>= ·) (funext fun value => ?_)
    cases value <;> rfl

end

theorem asked_join (operands : List Requirement) :
    (join connective operands).asked held = askedUntil held connective operands := by
  cases connective <;> rfl

theorem evaluate_join_nil : (join connective []).evaluate held = !connective.decisive := by
  cases connective <;> rfl

/-- The truth value of a node follows from that of its first operand, if this decides it. -/
theorem evaluate_join_cons (r : Requirement) (rs : List Requirement) :
    (join connective (r :: rs)).evaluate held =
      if r.evaluate held = connective.decisive then r.evaluate held
      else (join connective rs).evaluate held := by
  rw [evaluate, evaluateM_join_cons, Id.run_bind]
  exact apply_ite Id.run _ _ _

/-- No leaf is asked about that does not stand in the tree, and none out of order. -/
theorem asked_sublist_items (r : Requirement) : (r.asked held).Sublist r.items := by
  induction r using joinInduction with
  | leaf text => exact List.Sublist.refl _
  | node connective operands ih =>
    rw [asked_join, items_join]
    induction operands with
    | nil => exact List.Sublist.refl _
    | cons r rs ihrs =>
      obtain ⟨hr, hrs⟩ := List.forall_mem_cons.1 ih
      rw [askedUntil, List.flatMap_cons]
      split
      · exact hr.append (List.nil_sublist _)
      · exact hr.append (ihrs hrs)

/-! ### Transcripts -/

/-- Answers whether a leaf is held, and notes the question. -/
def noting (held : String → Bool) (text : String) : StateM (List String) Bool := do
  modify (· ++ [text])
  return held text

/-- The truth value of a requirement when all operands are evaluated, and the leaves asked about. -/
def evaluateEveryAsking (held : String → Bool) (r : Requirement) : Bool × List String :=
  (r.evaluateEveryM (noting held)).run []

/-- Whenever the leaves of `questions` are answered as by `held`, the inquiry asks about exactly
these leaves, in this order, and comes to `value`. -/
def Transcript {α : Type} (held : String → Bool)
    (inquiry : (String → StateM (List String) Bool) → StateM (List String) α) (value : α)
    (questions : List String) : Prop :=
  ∀ other : String → Bool, (∀ text ∈ questions, other text = held text) →
    ∀ log, (inquiry (noting other)).run log = (value, log ++ questions)

namespace Transcript

variable {α β : Type}

theorem pure (value : α) : Transcript held (fun _ => Pure.pure value) value [] := by
  intro other _ log
  rw [List.append_nil]
  rfl

theorem ask (text : String) : Transcript held (fun ask => ask text) (held text) [text] := by
  intro other hother log
  rw [← hother text (List.mem_singleton_self text)]
  rfl

/-- The transcripts of two computations in sequence follow each other. -/
theorem bind {inquiry : (String → StateM (List String) Bool) → StateM (List String) α}
    {next : (String → StateM (List String) Bool) → α → StateM (List String) β} {value : α}
    {result : β} {questions rest : List String} (hinquiry : Transcript held inquiry value questions)
    (hnext : Transcript held (fun ask => next ask value) result rest) :
    Transcript held (fun ask => inquiry ask >>= next ask) result (questions ++ rest) := by
  intro other hother log
  obtain ⟨hfirst, hsecond⟩ := List.forall_mem_append.1 hother
  rw [StateT.run_bind, hinquiry other hfirst log]
  exact (hnext other hsecond (log ++ questions)).trans (by rw [List.append_assoc])

/-- A step that asks nothing adds nothing to a transcript. -/
theorem bind_pure {inquiry : (String → StateM (List String) Bool) → StateM (List String) α}
    {value : α} {questions : List String} (hinquiry : Transcript held inquiry value questions)
    (f : α → β) :
    Transcript held (fun ask => inquiry ask >>= fun a => Pure.pure (f a)) (f value) questions := by
  rw [← List.append_nil questions]
  exact hinquiry.bind (.pure (f value))

end Transcript

/-- A leaf is asked about unless it is a terminal. -/
theorem transcript_leaf (text : String) :
    Transcript held (fun ask => evaluateM ask (.leaf text)) (evaluate held (.leaf text))
      (leaf text).items := by
  cases h : isTerminal text with
  | true =>
    rw [items_leaf_of_isTerminal h]
    simp only [evaluateM_leaf_of_isTerminal _ held h]
    exact .pure _
  | false =>
    have hitems : (leaf text).items = [text] := by simp [items, h]
    rw [hitems, evaluate_leaf_of_isTerminal_eq_false held h]
    simp only [evaluateM_leaf_of_isTerminal_eq_false _ h]
    exact .ask text

/-- An evaluation asks about the leaves on which the value rests. -/
theorem transcript_evaluateM (r : Requirement) :
    Transcript held (fun ask => evaluateM ask r) (r.evaluate held) (r.asked held) := by
  induction r using joinInduction with
  | leaf text => exact transcript_leaf text
  | node connective operands ih =>
    rw [asked_join]
    induction operands with
    | nil =>
      rw [evaluate_join_nil]
      simp only [evaluateM_join_nil]
      exact .pure _
    | cons r rs ihrs =>
      obtain ⟨hr, hrs⟩ := List.forall_mem_cons.1 ih
      rw [evaluate_join_cons, askedUntil]
      simp only [evaluateM_join_cons]
      -- The value of the first operand decides whether the others are evaluated at all.
      refine hr.bind ?_
      split
      · exact .pure _
      · exact ihrs hrs

/-- The transcript of operands that are all evaluated, in terms of those of the operands. -/
theorem transcript_valuesM {operands : List Requirement}
    (h : ∀ r ∈ operands,
      Transcript held (fun ask => evaluateEveryM ask r) (r.evaluate held) r.items) :
    Transcript held (fun ask => valuesM ask operands) (operands.map (evaluate held))
      (operands.flatMap items) := by
  induction operands with
  | nil => exact .pure []
  | cons r rs ih =>
    obtain ⟨hr, hrs⟩ := List.forall_mem_cons.1 h
    exact hr.bind ((ih hrs).bind_pure (r.evaluate held :: ·))

/-- An evaluation of all operands asks about all item requirements and comes to the same value. -/
theorem transcript_evaluateEveryM (r : Requirement) :
    Transcript held (fun ask => evaluateEveryM ask r) (r.evaluate held) r.items := by
  induction r using joinInduction with
  | leaf text => exact transcript_leaf text
  | node connective operands ih =>
    rw [items_join]
    cases connective with
    | and =>
      rw [join, evaluate_all, ← Function.id_comp (evaluate held), ← List.all_map]
      exact (transcript_valuesM ih).bind_pure (List.all · id)
    | or =>
      rw [join, evaluate_any, ← Function.id_comp (evaluate held), ← List.any_map]
      exact (transcript_valuesM ih).bind_pure (List.any · id)

/-- An evaluation comes to the truth value of the tree and asks about the leaves on which it
rests. -/
theorem evaluateAsking_eq (held : String → Bool) (r : Requirement) :
    r.evaluateAsking held = (r.evaluate held, r.asked held) :=
  transcript_evaluateM r held (fun _ _ => rfl) []

/-- An evaluation depends only on the leaves it asks about. These are item requirements of the tree,
in their order, and stop in each node at the operand that decides it. Whatever holds of other
leaves, the same questions are asked and have the same outcome. An evaluation of all operands asks
about all item requirements and has this outcome, too. -/
theorem evaluation_depends_on_asked (held : String → Bool) (r : Requirement) :
    r.evaluateAsking held = (r.evaluate held, r.asked held) ∧
      (r.evaluateAsking held).2.Sublist r.items ∧
      (∀ other : String → Bool,
        (∀ text ∈ (r.evaluateAsking held).2, other text = held text) →
          r.evaluateAsking other = r.evaluateAsking held) ∧
      r.evaluateEveryAsking held = ((r.evaluateAsking held).1, r.items) := by
  rw [evaluateAsking_eq]
  refine ⟨rfl, asked_sublist_items r, fun other hother => ?_, ?_⟩
  · exact transcript_evaluateM r other hother []
  · exact transcript_evaluateEveryM r held (fun _ _ => rfl) []

/-- Without the bow, nothing turns on the hookshot: the answer about it may change. -/
theorem evaluation_depends_on_asked_hookshot :
    (∀ text ∈ (evaluateAsking (fun text => text = "Lantern")
        (.any [.all [.leaf "Bow", .leaf "Hookshot"], .leaf "Lantern"])).2,
          decide (text ≠ "Bow") = decide (text = "Lantern")) ∧
      evaluateAsking (fun text => text ≠ "Bow")
          (.any [.all [.leaf "Bow", .leaf "Hookshot"], .leaf "Lantern"]) =
        (true, ["Bow", "Lantern"]) := by
  have hlantern : evaluateAsking (fun text => text = "Lantern")
      (.any [.all [.leaf "Bow", .leaf "Hookshot"], .leaf "Lantern"]) =
        (true, ["Bow", "Lantern"]) := by
    decide
  have hagree : ∀ text ∈ (evaluateAsking (fun text => text = "Lantern")
      (.any [.all [.leaf "Bow", .leaf "Hookshot"], .leaf "Lantern"])).2,
        decide (text ≠ "Bow") = decide (text = "Lantern") := by
    rw [hlantern]
    decide
  exact ⟨hagree, ((evaluation_depends_on_asked _ _).2.2.1 _ hagree).trans hlantern⟩

end SeedLogic.Requirement
