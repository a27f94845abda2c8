import SeedLogic.Item
import SeedLogic.Requirement.Evaluate

/-!
# Small keys

A requirement with every other item in hand holds from some number of small keys on. That number
is computed from the leaves up: a conjunction needs the largest threshold of its operands and a
disjunction the smallest.
-/

namespace SeedLogic.Requirement

/-- Which leaves hold with `count` copies of `key`, when `held` decides all other leaves. -/
def heldWithKeys (key : String) (count : UInt32) (held : String → Bool) (text : String) : Bool :=
  let need := ItemRequirement.parse text
  if need.item = key then need.count ≤ count else held text

/-- Whether the requirement holds with `count` copies of `key`. -/
def availableWithKeys (r : Requirement) (key : String) (count : UInt32)
    (held : String → Bool) : Bool :=
  r.evaluate (heldWithKeys key count held)

mutual

/-- The least number of copies of `key` with which the requirement holds when all other items are
held, or none when no number suffices. -/
def keyThreshold (key : String) : Requirement → Option UInt32
  | .leaf text =>
    if text = nothingText then some 0
    else if text = impossibleText then none
    else
      let need := ItemRequirement.parse text
      if need.item = key then some need.count else some 0
  | .all operands => keyThresholdAll key operands
  | .any operands => keyThresholdAny key operands

/-- The largest threshold of the operands. -/
def keyThresholdAll (key : String) : List Requirement → Option UInt32
  | [] => some 0
  | r :: rs => do
    let a ← keyThreshold key r
    let b ← keyThresholdAll key rs
    some (max a b)

/-- The smallest threshold of the operands. -/
def keyThresholdAny (key : String) : List Requirement → Option UInt32
  | [] => none
  | r :: rs =>
    match keyThreshold key r, keyThresholdAny key rs with
    | some a, some b => some (min a b)
    | some a, none => some a
    | none, b => b

end

/-- The least number of copies of `key`, up to `maximum`, with which the requirement holds when
all other items are held. -/
def minimumKeys (r : Requirement) (key : String) (maximum : UInt32) : Option UInt32 :=
  (r.keyThreshold key).filter (· ≤ maximum)

section Threshold

variable (key : String) (count : UInt32)

private theorem max_le_count_iff (a b : UInt32) : max a b ≤ count ↔ a ≤ count ∧ b ≤ count := by
  change (if a ≤ b then b else a) ≤ count ↔ _
  split <;> simp only [UInt32.le_iff_toNat_le] at * <;> omega

private theorem min_le_count_iff (a b : UInt32) : min a b ≤ count ↔ a ≤ count ∨ b ≤ count := by
  change (if a ≤ b then a else b) ≤ count ↔ _
  split <;> simp only [UInt32.le_iff_toNat_le] at * <;> omega

mutual

private theorem evaluate_iff_threshold : ∀ r : Requirement,
    r.evaluate (heldWithKeys key count fun _ => true) = true ↔
      ∃ least, r.keyThreshold key = some least ∧ least ≤ count
  | .leaf text => by
    rw [evaluate_leaf, keyThreshold]
    by_cases hn : text = nothingText
    · simp [hn]
    · by_cases hi : text = impossibleText
      · simp [hi, nothingText, impossibleText]
      · by_cases hk : (ItemRequirement.parse text).item = key <;>
          simp [hn, hi, hk, heldWithKeys]
  | .all rs => by
    rw [evaluate_all, keyThreshold, all_iff_threshold rs]
  | .any rs => by
    rw [evaluate_any, keyThreshold, any_iff_threshold rs]

private theorem all_iff_threshold : ∀ rs : List Requirement,
    rs.all (evaluate (heldWithKeys key count fun _ => true)) = true ↔
      ∃ least, keyThresholdAll key rs = some least ∧ least ≤ count
  | [] => by simp [keyThresholdAll]
  | r :: rs => by
    rw [List.all_cons, Bool.and_eq_true, evaluate_iff_threshold r, all_iff_threshold rs,
      keyThresholdAll]
    cases hr : keyThreshold key r <;> cases hrs : keyThresholdAll key rs <;>
      simp [max_le_count_iff]

private theorem any_iff_threshold : ∀ rs : List Requirement,
    rs.any (evaluate (heldWithKeys key count fun _ => true)) = true ↔
      ∃ least, keyThresholdAny key rs = some least ∧ least ≤ count
  | [] => by simp [keyThresholdAny]
  | r :: rs => by
    rw [List.any_cons, Bool.or_eq_true, evaluate_iff_threshold r, any_iff_threshold rs,
      keyThresholdAny]
    cases hr : keyThreshold key r <;> cases hrs : keyThresholdAny key rs <;>
      simp [min_le_count_iff]

end

end Threshold

/-- With all other items held, a requirement holds from its threshold on and not before. -/
theorem availableWithKeys_iff (r : Requirement) (key : String) (count : UInt32) :
    r.availableWithKeys key count (fun _ => true) = true ↔
      ∃ least, r.keyThreshold key = some least ∧ least ≤ count :=
  evaluate_iff_threshold key count r

end SeedLogic.Requirement
