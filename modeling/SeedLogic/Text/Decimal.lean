/-!
# Numerals

A decimal numeral is a nonempty run of ASCII digits; leading zeros are allowed when reading and
never written. Where only numbers below a bound count, reading stops as soon as the bound is
reached, so that a long numeral costs no more than its length.
-/

namespace SeedLogic.Text

/-- The value of one ASCII digit. -/
def digit? (c : Char) : Option Nat :=
  if '0' ≤ c ∧ c ≤ '9' then some (c.toNat - '0'.toNat) else none

/-- The value of a hexadecimal digit of either case. -/
def hexDigit? (c : Char) : Option Nat :=
  if '0' ≤ c ∧ c ≤ '9' then some (c.toNat - '0'.toNat)
  else if 'a' ≤ c ∧ c ≤ 'f' then some (c.toNat - 'a'.toNat + 10)
  else if 'A' ≤ c ∧ c ≤ 'F' then some (c.toNat - 'A'.toNat + 10)
  else none

/-- The value of a run of digits read after the digits worth `high`. -/
def digitsFrom? (high : Nat) : List Char → Option Nat
  | [] => some high
  | c :: cs =>
    match digit? c with
    | some d => digitsFrom? (10 * high + d) cs
    | none => none

/-- The value of a numeral. -/
def numeral? (cs : List Char) : Option Nat :=
  if cs = [] then none else digitsFrom? 0 cs

/-- The number below a bound with the given digits in a base, read after the digits worth
`high`. -/
def digitsBelow? (bound base high : Nat) : List Nat → Option Nat
  | [] => if high < bound then some high else none
  | digit :: digits =>
    if high < bound then digitsBelow? bound base (base * high + digit) digits else none

/-- The number below a bound with the given digits in a base. -/
def ofDigitsBelow? (bound base : Nat) (digits : List Nat) : Option Nat :=
  digitsBelow? bound base 0 digits

/-- The value of a numeral that lies below a bound. -/
def numeralBelow? (bound : Nat) (cs : List Char) : Option Nat := do
  if cs = [] then none
  let digits ← cs.mapM digit?
  ofDigitsBelow? bound 10 digits

/-- The value of a numeral that fits in 32 bits. -/
def numeral32? (cs : List Char) : Option UInt32 :=
  (numeralBelow? UInt32.size cs).map UInt32.ofNat

/-- The digits of a number, without leading zeros. -/
def decimal (n : Nat) : String :=
  Nat.repr n

/-- The digits of an integer, with a sign in front of a negative one. -/
def signedDecimal : Int → String
  | .ofNat n => decimal n
  | .negSucc n => "-" ++ decimal (n + 1)

end SeedLogic.Text
