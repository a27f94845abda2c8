import SeedLogic.Proofs.Requirement.Meaning
import SeedLogic.SmallKeys

/-!
# Small keys of simplified requirements

With all other items in hand, the least number of small keys of a requirement is a threshold: the
requirement holds with this number and with every larger one, and with no smaller one. More keys
never hurt, and neither do more items, whatever is in hand. So a search that tries the numbers of
keys in order finds the threshold, and it finds nothing exactly if the last number that it tries
does not suffice. Simplification, which compares the counts of keys as it does those of all items,
leaves the threshold where it was.

## Main definitions

* `Requirement.countsUpTo` : the numbers of keys up to a maximum, in order.

## Main results

* `Requirement.minimumKeys_eq_some_iff`, `Requirement.minimumKeys_eq_none_iff` : the least number of
  keys is a threshold.
* `Requirement.availableWithKeys_mono` : more keys and more items do not hurt.
* `Requirement.minimumKeys_eq_find?` : the threshold is what a search finds.
* `Requirement.small_keys_monotone` : keys and items are monotone, and the least number is least.
* `Requirement.availableWithKeys_simplify`, `Requirement.minimumKeys_simplify` : simplification does
  not change how many keys suffice.
-/

namespace SeedLogic.Requirement

variable {r : Requirement} {key : String} {maximum least : UInt32}

/-! ### Thresholds -/

/-- The least number of keys is the one from which on the requirement holds. -/
theorem minimumKeys_eq_some_iff :
    r.minimumKeys key maximum = some least ↔
      least ≤ maximum ∧
        ∀ count, r.availableWithKeys key count (fun _ => true) = true ↔ least ≤ count := by
  have hfilter : r.minimumKeys key maximum = some least ↔
      r.keyThreshold key = some least ∧ least ≤ maximum := by
    simp [minimumKeys, Option.filter_eq_some_iff]
  rw [hfilter]
  constructor
  · rintro ⟨hthreshold, hle⟩
    refine ⟨hle, fun count => ?_⟩
    rw [availableWithKeys_iff, hthreshold]
    simp
  · rintro ⟨hle, havailable⟩
    refine ⟨?_, hle⟩
    obtain ⟨threshold, hthreshold, hbelow⟩ :=
      (availableWithKeys_iff r key least).1 ((havailable least).2 (UInt32.le_refl least))
    have habove : least ≤ threshold :=
      (havailable threshold).1 ((availableWithKeys_iff r key threshold).2
        ⟨threshold, hthreshold, UInt32.le_refl threshold⟩)
    rw [hthreshold, UInt32.le_antisymm hbelow habove]

/-- There is no least number of keys when the largest number does not suffice. -/
theorem minimumKeys_eq_none_iff :
    r.minimumKeys key maximum = none ↔
      r.availableWithKeys key maximum (fun _ => true) = false := by
  rw [← Bool.not_eq_true, availableWithKeys_iff]
  simp [minimumKeys, Option.filter_eq_none_iff]

/-! ### Monotonicity -/

/-- A requirement that holds still holds when more of its leaves do. -/
theorem evaluate_mono {held more : String → Bool} {r : Requirement}
    (h : ∀ text, held text = true → more text = true) :
    r.evaluate held = true → r.evaluate more = true := by
  induction r using joinInduction with
  | leaf text =>
    simp only [evaluate_leaf, Bool.or_eq_true, Bool.and_eq_true]
    exact Or.imp_right (And.imp_right (h text))
  | node connective operands ih =>
    cases connective with
    | and =>
      simp only [join, evaluate_all, List.all_eq_true]
      exact fun hall r hr => ih r hr (hall r hr)
    | or =>
      simp only [join, evaluate_any, List.any_eq_true]
      rintro ⟨r, hr, hholds⟩
      exact ⟨r, hr, ih r hr hholds⟩

/-- A leaf that holds still holds with more keys and more of the other items. -/
theorem heldWithKeys_mono {fewer more : UInt32} {held others : String → Bool}
    (hcount : fewer ≤ more) (hheld : ∀ text, held text = true → others text = true)
    (text : String) :
    heldWithKeys key fewer held text = true → heldWithKeys key more others text = true := by
  by_cases hkey : (ItemRequirement.parse text).item = key
  · simp only [heldWithKeys, if_pos hkey, decide_eq_true_eq]
    exact fun hfewer => UInt32.le_trans hfewer hcount
  · simp only [heldWithKeys, if_neg hkey]
    exact hheld text

/-- More keys and more of the other items do not hurt. -/
theorem availableWithKeys_mono {fewer more : UInt32} {held others : String → Bool}
    (hcount : fewer ≤ more) (hheld : ∀ text, held text = true → others text = true) :
    r.availableWithKeys key fewer held = true → r.availableWithKeys key more others = true :=
  evaluate_mono (heldWithKeys_mono hcount hheld)

/-- The least number of keys suffices, and no smaller one does. -/
theorem minimumKeys_eq_some_iff_forall_lt :
    r.minimumKeys key maximum = some least ↔
      least ≤ maximum ∧ r.availableWithKeys key least (fun _ => true) = true ∧
        ∀ count < least, r.availableWithKeys key count (fun _ => true) = false := by
  rw [minimumKeys_eq_some_iff]
  refine and_congr_right fun _ => ⟨fun havailable => ?_, fun ⟨hleast, hbelow⟩ count => ?_⟩
  · refine ⟨(havailable least).2 (UInt32.le_refl least), fun count hlt => ?_⟩
    rw [← Bool.not_eq_true, havailable]
    exact UInt32.not_le.2 hlt
  · refine ⟨fun hcount => UInt32.not_lt.1 fun hlt => ?_, fun hle => ?_⟩
    · exact absurd hcount (Bool.not_eq_true _ ▸ hbelow count hlt)
    · exact availableWithKeys_mono hle (fun _ h => h) hleast

/-! ### Searching -/

/-- The numbers of keys from none up to a maximum. -/
def countsUpTo (maximum : UInt32) : List UInt32 :=
  (List.range (maximum.toNat + 1)).map UInt32.ofNat

/-- A search through the numbers up to a maximum finds the first one with a property. -/
private theorem find?_countsUpTo_eq_some_iff {holds : UInt32 → Bool} :
    (countsUpTo maximum).find? holds = some least ↔
      least ≤ maximum ∧ holds least = true ∧ ∀ count < least, holds count = false := by
  have hofNat (n : Nat) (hn : n < maximum.toNat + 1) : (UInt32.ofNat n).toNat = n :=
    UInt32.toNat_ofNat_of_lt' (Nat.lt_of_lt_of_le hn maximum.toNat_lt)
  simp only [countsUpTo, List.find?_map, Option.map_eq_some_iff, List.find?_range_eq_some,
    List.mem_range, Function.comp_apply, Bool.not_eq_true']
  constructor
  · rintro ⟨n, ⟨hholds, hn, hbelow⟩, rfl⟩
    refine ⟨?_, hholds, fun count hlt => ?_⟩
    · rw [UInt32.le_iff_toNat_le, hofNat n hn]
      omega
    · rw [UInt32.lt_iff_toNat_lt, hofNat n hn] at hlt
      simpa using hbelow count.toNat hlt
  · rintro ⟨hle, hholds, hbelow⟩
    rw [UInt32.le_iff_toNat_le] at hle
    refine ⟨least.toNat, ⟨by simpa using hholds, by omega, fun n hn => ?_⟩, by simp⟩
    refine hbelow _ ?_
    rw [UInt32.lt_iff_toNat_lt, hofNat n (by omega)]
    exact hn

/-- The threshold is what a search through all numbers of keys finds. -/
theorem minimumKeys_eq_find? :
    r.minimumKeys key maximum =
      (countsUpTo maximum).find? fun count => r.availableWithKeys key count fun _ => true := by
  refine Option.ext fun least => ?_
  rw [minimumKeys_eq_some_iff_forall_lt, find?_countsUpTo_eq_some_iff]

/-! ### Simplification -/

/-- More copies of the key do not hurt, and neither do more copies of other items as long as what is
held of them does not depend on how many are asked for. -/
theorem heldWithKeys_sound (key : String) (count : UInt32) {held : String → Bool}
    (hmono : ∀ a b, (ItemRequirement.parse a).item = (ItemRequirement.parse b).item →
      (ItemRequirement.parse b).count ≤ (ItemRequirement.parse a).count →
        held a = true → held b = true) :
    LeafImplication.Sound ItemRequirement.implies (heldWithKeys key count held) := by
  refine ItemRequirement.implies_sound_of_mono fun a b hitem hcount ha => ?_
  by_cases hkey : (ItemRequirement.parse b).item = key
  · have ha' : (ItemRequirement.parse a).count ≤ count := by
      simpa [heldWithKeys, hitem, hkey] using ha
    simpa [heldWithKeys, hkey] using UInt32.le_trans hcount ha'
  · have ha' : held a = true := by
      simpa [heldWithKeys, hitem, hkey] using ha
    simpa [heldWithKeys, hkey] using hmono a b hitem hcount ha'

/-- With all other items held, a simplified requirement holds with the same numbers of keys. -/
theorem availableWithKeys_simplify (r : Requirement) (key : String) (count : UInt32) :
    (r.simplify ItemRequirement.implies).availableWithKeys key count (fun _ => true) =
      r.availableWithKeys key count (fun _ => true) :=
  evaluate_simplify_of_sound (heldWithKeys_sound key count fun _ _ _ _ _ => rfl) r

/-- A simplified requirement needs as many keys as the original one. -/
theorem minimumKeys_simplify (r : Requirement) (key : String) (maximum : UInt32) :
    (r.simplify ItemRequirement.implies).minimumKeys key maximum = r.minimumKeys key maximum := by
  refine Option.ext fun least => ?_
  rw [minimumKeys_eq_some_iff, minimumKeys_eq_some_iff]
  simp only [availableWithKeys_simplify]

/-! ### Keys and items -/

/-- A requirement that holds with some keys and items holds with more of both. Up to every maximum,
the greatest 32-bit number included, the least number of keys with which it holds when all other
items are held is the one that a search in increasing order finds: the number suffices and no
smaller one does. There is none exactly if the maximum does not suffice. -/
theorem small_keys_monotone (r : Requirement) (key : String) :
    (∀ (fewer more : UInt32) (held others : String → Bool), fewer ≤ more →
      (∀ text, held text = true → others text = true) →
      r.availableWithKeys key fewer held = true →
        r.availableWithKeys key more others = true) ∧
    ∀ maximum : UInt32,
      (r.minimumKeys key maximum =
        (countsUpTo maximum).find? fun count => r.availableWithKeys key count fun _ => true) ∧
      (∀ least, r.minimumKeys key maximum = some least ↔
        least ≤ maximum ∧ r.availableWithKeys key least (fun _ => true) = true ∧
          ∀ count < least, r.availableWithKeys key count (fun _ => true) = false) ∧
      (r.minimumKeys key maximum = none ↔
        r.availableWithKeys key maximum (fun _ => true) = false) :=
  ⟨fun _ _ _ _ hcount hheld => availableWithKeys_mono hcount hheld,
    fun _ => ⟨minimumKeys_eq_find?, fun _ => minimumKeys_eq_some_iff_forall_lt,
      minimumKeys_eq_none_iff⟩⟩

/-- A gate that opens with two keys or with one key and a hook, with fewer keys than are tried and
with all keys that can be counted. -/
theorem small_keys_monotone_gate :
    let gate : Requirement :=
      .any [.leaf "Small Key x2", .all [.leaf "Small Key x1", .leaf "Hook"], .impossible]
    let hook (text : String) : Bool := text = "Hook"
    (1 : UInt32) ≤ 2 ∧ (∀ text, hook text = true → true = true) ∧
      gate.availableWithKeys "Small Key" 1 hook = true ∧
      gate.availableWithKeys "Small Key" 2 (fun _ => true) = true ∧
      gate.minimumKeys "Small Key" (.ofNat (UInt32.size - 1)) = some 1 ∧
      (gate.availableWithKeys "Small Key" 0 fun _ => true) = false := by
  intro gate hook
  obtain ⟨hmono, hleast⟩ := small_keys_monotone gate "Small Key"
  have hone : gate.availableWithKeys "Small Key" 1 hook = true := by decide +kernel
  have hminimum : gate.minimumKeys "Small Key" (.ofNat (UInt32.size - 1)) = some 1 := by
    decide +kernel
  obtain ⟨-, -, hbelow⟩ := ((hleast _).2.1 1).1 hminimum
  exact ⟨by decide, fun _ _ => rfl, hone,
    hmono 1 2 hook (fun _ => true) (by decide) (fun _ _ => rfl) hone, hminimum,
    hbelow 0 (by decide)⟩

end SeedLogic.Requirement
