import SeedLogic.Text.Decimal

/-!
# The values of numerals

A numeral is read exactly if it is a nonempty run of ASCII digits whose decimal value lies below
the bound: stopping at the bound loses nothing, since a further digit never makes a value smaller.
The digits of a number are a numeral with this value, so a number is read back from its digits.

## Main definitions

* `Text.IsNumeral` : nonempty runs of digits.

## Main results

* `Text.numeralBelow?_eq_some_iff` : what is read as a numeral below a bound.
* `Text.numeral32?_eq_some_iff` : what is read as a numeral of 32 bits.
* `Text.numeral32?_decimal` : a number is read back from its digits.
-/

namespace SeedLogic.Text

/-- A nonempty run of ASCII digits. -/
structure IsNumeral (cs : List Char) : Prop where
  ne_nil : cs ≠ []
  isDigit : ∀ c ∈ cs, c.isDigit = true

/-! ### Digits -/

/-- A digit is worth its distance from zero. -/
theorem digit?_eq_some_iff {c : Char} {value : Nat} :
    digit? c = some value ↔ c.isDigit = true ∧ c.toNat - '0'.toNat = value := by
  have hdigit : c.isDigit = true ↔ '0' ≤ c ∧ c ≤ '9' := by
    rw [Char.isDigit, Bool.and_eq_true, decide_eq_true_eq, decide_eq_true_eq]
    exact Iff.rfl
  rw [digit?, hdigit]
  split
  case isTrue h =>
    rw [Option.some.injEq]
    exact ⟨fun hvalue => ⟨h, hvalue⟩, And.right⟩
  case isFalse h => exact ⟨nofun, fun hvalue => absurd hvalue.1 h⟩

/-- Characters are read as digits when each of them is one. -/
theorem mapM_digit?_eq_some_iff {cs : List Char} {digits : List Nat} :
    cs.mapM digit? = some digits ↔
      (∀ c ∈ cs, c.isDigit = true) ∧ cs.map (fun c => c.toNat - '0'.toNat) = digits := by
  induction cs generalizing digits with
  | nil => simp
  | cons c cs ih =>
    simp only [List.mapM_cons, Option.bind_eq_bind, Option.bind_eq_some_iff, digit?_eq_some_iff, ih,
      Option.pure_def, Option.some.injEq, List.forall_mem_cons, List.map_cons]
    constructor
    · rintro ⟨_, ⟨hc, rfl⟩, _, ⟨hcs, rfl⟩, rfl⟩
      exact ⟨⟨hc, hcs⟩, rfl⟩
    · rintro ⟨⟨hc, hcs⟩, rfl⟩
      exact ⟨_, ⟨hc, rfl⟩, _, ⟨hcs, rfl⟩, rfl⟩

/-! ### Values below a bound -/

variable {bound base high value : Nat}

/-- Further digits never make a value smaller. -/
private theorem le_foldl_digits (hbase : 0 < base) (high : Nat) (digits : List Nat) :
    high ≤ digits.foldl (fun high digit => base * high + digit) high := by
  induction digits generalizing high with
  | nil => exact Nat.le_refl high
  | cons digit digits ih =>
    calc high ≤ base * high := Nat.le_mul_of_pos_left high hbase
      _ ≤ base * high + digit := Nat.le_add_right _ digit
      _ ≤ _ := ih (base * high + digit)

/-- Digits are read to the end exactly if their value lies below the bound. -/
theorem digitsBelow?_eq_some_iff (hbase : 0 < base) {digits : List Nat} :
    digitsBelow? bound base high digits = some value ↔
      digits.foldl (fun high digit => base * high + digit) high = value ∧ value < bound := by
  induction digits generalizing high with
  | nil =>
    rw [digitsBelow?, List.foldl_nil]
    split <;> grind
  | cons digit digits ih =>
    rw [digitsBelow?, List.foldl_cons]
    split
    case isTrue => exact ih
    case isFalse h =>
      have hle := le_foldl_digits hbase high (digit :: digits)
      rw [List.foldl_cons] at hle
      simp only [reduceCtorEq, false_iff]
      rintro ⟨rfl, hlt⟩
      exact h (Nat.lt_of_le_of_lt hle hlt)

/-- A text is read as a numeral below a bound exactly if it is a numeral and its decimal value lies
below the bound. -/
theorem numeralBelow?_eq_some_iff {cs : List Char} :
    numeralBelow? bound cs = some value ↔
      IsNumeral cs ∧ Nat.ofDigitChars 10 cs 0 = value ∧ value < bound := by
  rw [numeralBelow?]
  split
  case isTrue h =>
    simp only [h, Option.bind_eq_bind, Option.bind_none, reduceCtorEq, false_iff]
    exact fun hnumeral => hnumeral.1.ne_nil rfl
  case isFalse h =>
    have hvalue : Nat.ofDigitChars 10 cs 0 = (cs.map fun c => c.toNat - '0'.toNat).foldl
        (fun high digit => 10 * high + digit) 0 := by
      rw [Nat.ofDigitChars_eq_foldl, List.foldl_map]
    simp only [Option.bind_eq_bind, Option.bind_eq_some_iff, mapM_digit?_eq_some_iff,
      ofDigitsBelow?, digitsBelow?_eq_some_iff (by decide : 0 < 10), hvalue]
    constructor
    · rintro ⟨_, ⟨hdigits, rfl⟩, hbelow⟩
      exact ⟨⟨h, hdigits⟩, hbelow⟩
    · rintro ⟨hnumeral, hbelow⟩
      exact ⟨_, ⟨hnumeral.isDigit, rfl⟩, hbelow⟩

/-- A text is read as a number of 32 bits exactly if it is a numeral with this value. -/
theorem numeral32?_eq_some_iff {cs : List Char} {n : UInt32} :
    numeral32? cs = some n ↔ IsNumeral cs ∧ Nat.ofDigitChars 10 cs 0 = n.toNat := by
  rw [numeral32?, Option.map_eq_some_iff]
  constructor
  · rintro ⟨value, hread, rfl⟩
    obtain ⟨hnumeral, hvalue, hlt⟩ := numeralBelow?_eq_some_iff.1 hread
    exact ⟨hnumeral, by rw [hvalue, UInt32.toNat_ofNat_of_lt' hlt]⟩
  · rintro ⟨hnumeral, hvalue⟩
    exact ⟨n.toNat, numeralBelow?_eq_some_iff.2 ⟨hnumeral, hvalue, n.toNat_lt_size⟩,
      UInt32.ofNat_toNat⟩

/-! ### Digits of a number -/

private theorem toList_decimal (n : Nat) : (decimal n).toList = Nat.toDigits 10 n := by
  rw [decimal, Nat.repr_eq_ofList_toDigits, String.toList_ofList]

/-- The digits of a number are a numeral. -/
theorem isNumeral_decimal (n : Nat) : IsNumeral (decimal n).toList := by
  rw [toList_decimal]
  exact ⟨Nat.toDigits_ne_nil, fun c hc => Nat.isDigit_of_mem_toDigits (by decide) (by decide) hc⟩

/-- The digits of a number have its value. -/
theorem ofDigitChars_decimal (n : Nat) : Nat.ofDigitChars 10 (decimal n).toList 0 = n := by
  rw [toList_decimal, Nat.ofDigitChars_ten_toDigits]

/-- A number is read back from its digits. -/
theorem numeral32?_decimal (n : UInt32) : numeral32? (decimal n.toNat).toList = some n :=
  numeral32?_eq_some_iff.2 ⟨isNumeral_decimal n.toNat, ofDigitChars_decimal n.toNat⟩

end SeedLogic.Text
