import SeedLogic.Data.Datum
import SeedLogic.Text.Decimal

/-!
# Plain scalars of TOML

A plain scalar stands without quotes: a truth value, an integer in one of four bases, a number with
a fraction or an exponent, a date, a time, or both. Only truth values and 64-bit integers have a
place in a record; the others are recognised and keep no value.
-/

namespace SeedLogic.Toml

/-! ### Runs of digits -/

/-- Whether underscores stand only between other characters. -/
def underscoresBetween : List Char → Bool
  | [] => false
  | ['_'] => false
  | [_] => true
  | '_' :: _ => false
  | _ :: '_' :: rest => underscoresBetween rest
  | _ :: rest => underscoresBetween rest

/-- A decimal digit, or an underscore between digits. -/
def isNumeralChar (c : Char) : Bool :=
  c.isDigit || c = '_'

/-- Whether a text is a run of decimal digits with underscores between them. -/
def isNumeral (cs : List Char) : Bool :=
  underscoresBetween cs && cs.all isNumeralChar

/-- Whether a text is a numeral that starts with no idle zero. -/
def isWholePart (cs : List Char) : Bool :=
  match cs with
  | '0' :: _ :: _ => false
  | cs => isNumeral cs

/-- A text without the sign at its start. -/
def dropSign : List Char → List Char
  | '+' :: rest => rest
  | '-' :: rest => rest
  | rest => rest

/-! ### Integers -/

/-- Whether a character is a hexadecimal digit of either case. -/
def isHexDigit (c : Char) : Bool :=
  (Text.hexDigit? c).isSome

/-- Whether every underscore stands between two hexadecimal digits. -/
def underscoresInside : List Char → Bool
  | [] => true
  | ['_'] => false
  | [_] => true
  | '_' :: _ => false
  | a :: '_' :: b :: rest => isHexDigit a && isHexDigit b && underscoresInside (b :: rest)
  | _ :: rest => underscoresInside rest

/-- The number with the given digits and sign. A number beyond 64 bits keeps no value. -/
def ofDigits (negative : Bool) (base : Nat) (digits : List Nat) : Datum :=
  match Text.ofDigitsBelow? UInt64.size base digits with
  | none => .otherScalar
  | some size =>
    let value : Int := if negative then -size else size
    if Int64.minValue.toInt ≤ value ∧ value ≤ Int64.maxValue.toInt then .integer value
    else .otherScalar

/-- The digits of a text without its underscores, if there are any and they are digits of the
base. -/
def digitsIn? (base : Nat) (cs : List Char) : Option (List Nat) := do
  let digits ← (cs.filter (· ≠ '_')).mapM Text.hexDigit?
  if !digits.isEmpty && digits.all (· < base) then some digits else none

/-- The integer in a base behind its mark. A mark without digits keeps no value. -/
def marked? (base : Nat) (cs : List Char) : Option Datum :=
  if cs.isEmpty then some .otherScalar
  else if underscoresInside cs then (digitsIn? base cs).map (ofDigits false base)
  else none

/-- The decimal integer without its sign. It must not start with an idle zero. Behind an underscore
other characters than those of numbers with a fraction may follow; such a text keeps no value. -/
def decimal? (negative : Bool) (cs : List Char) : Option Datum :=
  match cs.span Char.isDigit with
  | (['0'], []) => some (.integer 0)
  | ([], _) => none
  | ('0' :: _, _) => none
  | (digits, []) => (digitsIn? 10 digits).map (ofDigits negative 10)
  | (_, '_' :: rest) =>
    if rest.any (fun c => c = ' ' || c = '.' || c = 'e' || c = 'E') || !underscoresInside cs then
      none
    else
      match digitsIn? 10 cs with
      | some digits => some (ofDigits negative 10 digits)
      | none => some .otherScalar
  | _ => none

/-- The integer that a text denotes. Only a decimal integer may have a sign. -/
def integer? (cs : List Char) : Option Datum :=
  match cs with
  | '0' :: 'x' :: digits => marked? 16 digits
  | '0' :: 'o' :: digits => marked? 8 digits
  | '0' :: 'b' :: digits => marked? 2 digits
  | '+' :: rest => decimal? false rest
  | '-' :: rest => decimal? true rest
  | cs => decimal? false cs

/-! ### Numbers with a fraction or an exponent -/

/-- Whether a text is an exponent with its letter. -/
def isExponent : List Char → Bool
  | e :: rest => (e = 'e' || e = 'E') && isNumeral (dropSign rest)
  | [] => false

/-- Whether a text is a number with a fraction, an exponent or both, or one of the two names of
numbers without digits. -/
def isFractional (cs : List Char) : Bool :=
  let unsigned := dropSign cs
  if unsigned = ['i', 'n', 'f'] || unsigned = ['n', 'a', 'n'] then true
  else
    let (whole, tail) := unsigned.span isNumeralChar
    isWholePart whole &&
      match tail with
      | '.' :: rest =>
        let (fraction, tail) := rest.span isNumeralChar
        isNumeral fraction && (tail.isEmpty || isExponent tail)
      | tail => isExponent tail

/-! ### Dates and times -/

/-- The value of exactly `count` digits at the start, and what follows them. -/
def fixedNumeral? (count : Nat) (cs : List Char) : Option (Nat × List Char) :=
  if cs.length < count then none
  else (Text.numeral? (cs.take count)).map fun value => (value, cs.drop count)

/-- What follows a character at the start. -/
def after? (c : Char) (cs : List Char) : Option (List Char) :=
  if cs.head? = some c then some cs.tail else none

/-- The number of days in a month of the Gregorian calendar. -/
def daysInMonth (year month : Nat) : Nat :=
  if month = 2 then
    if year % 4 = 0 ∧ (year % 100 ≠ 0 ∨ year % 400 = 0) then 29 else 28
  else if month = 4 ∨ month = 6 ∨ month = 9 ∨ month = 11 then 30
  else 31

/-- What follows a date at the start. -/
def afterDate? (cs : List Char) : Option (List Char) := do
  let (year, cs) ← fixedNumeral? 4 cs
  let (month, cs) ← fixedNumeral? 2 (← after? '-' cs)
  let (day, cs) ← fixedNumeral? 2 (← after? '-' cs)
  if 1 ≤ month ∧ month ≤ 12 ∧ 1 ≤ day ∧ day ≤ daysInMonth year month then some cs else none

/-- What follows the hour and the minute at the start. -/
def afterClock? (cs : List Char) : Option (List Char) := do
  let (hour, cs) ← fixedNumeral? 2 cs
  let (minute, cs) ← fixedNumeral? 2 (← after? ':' cs)
  if hour ≤ 23 ∧ minute ≤ 59 then some cs else none

/-- What follows a time at the start. Its seconds may be missing, and may have a fraction; a leap
second is allowed. -/
def afterTime? (cs : List Char) : Option (List Char) := do
  match ← afterClock? cs with
  | ':' :: rest => do
    let (second, rest) ← fixedNumeral? 2 rest
    if 60 < second then none
    match rest with
    | '.' :: rest =>
      match rest.span Char.isDigit with
      | ([], _) => none
      | (_, rest) => some rest
    | rest => some rest
  | rest => some rest

/-- Whether a text is nothing or the distance of a time zone from the common one. -/
def isZone (cs : List Char) : Bool :=
  match cs with
  | [] => true
  | ['Z'] => true
  | ['z'] => true
  | '+' :: rest => afterClock? rest = some []
  | '-' :: rest => afterClock? rest = some []
  | _ => false

/-- Whether a text is a date, a time, or a date and a time, which then may have a zone. -/
def isMoment (cs : List Char) : Bool :=
  match afterDate? cs with
  | none => afterTime? cs = some []
  | some [] => true
  | some (separator :: rest) =>
    (separator = 'T' || separator = 't' || separator = ' ') &&
      match afterTime? rest with
      | some zone => isZone zone
      | none => false

/-! ### All kinds -/

/-- The value that a text without quotes denotes. -/
def scalar? (cs : List Char) : Option Datum :=
  if cs = ['t', 'r', 'u', 'e'] then some (.boolean true)
  else if cs = ['f', 'a', 'l', 's', 'e'] then some (.boolean false)
  else if isFractional cs || isMoment cs then some .otherScalar
  else integer? cs

end SeedLogic.Toml
