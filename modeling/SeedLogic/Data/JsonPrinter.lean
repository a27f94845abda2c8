import SeedLogic.Data.Datum
import SeedLogic.Text.Decimal

/-!
# Printing data as JSON

Data are printed on one line without blanks. Quotes, backslashes and control characters are
escaped; all other characters stand for themselves.
-/

namespace SeedLogic.Json

/-- The lower-case hexadecimal digit of a number below sixteen. -/
def hexDigit (n : Nat) : Char :=
  "0123456789abcdef".toList.getD n '0'

/-- The escaped form of a character inside a string. -/
def escape (c : Char) : List Char :=
  match c with
  | '"' => ['\\', '"']
  | '\\' => ['\\', '\\']
  | '\x08' => ['\\', 'b']
  | '\x0c' => ['\\', 'f']
  | '\n' => ['\\', 'n']
  | '\r' => ['\\', 'r']
  | '\t' => ['\\', 't']
  | c =>
    if c.toNat < 0x20 then ['\\', 'u', '0', '0', hexDigit (c.toNat / 16), hexDigit (c.toNat % 16)]
    else [c]

/-- A text between quotes. -/
def quote (text : String) : String :=
  "\"" ++ .ofList (text.toList.flatMap escape) ++ "\""

mutual

/-- The JSON text of a datum. A scalar without a JSON form is printed as null. -/
def print : Datum → String
  | .null => "null"
  | .boolean true => "true"
  | .boolean false => "false"
  | .integer value => Text.signedDecimal value
  | .otherScalar => "null"
  | .text value => quote value
  | .list items => "[" ++ ",".intercalate (printItems items) ++ "]"
  | .table entries _ => "\x7b" ++ ",".intercalate (printEntries entries) ++ "\x7d"

/-- The JSON texts of the items of a list. -/
def printItems : List Datum → List String
  | [] => []
  | item :: rest => print item :: printItems rest

/-- The JSON texts of the entries of a table. -/
def printEntries : List (String × Datum) → List String
  | [] => []
  | (key, value) :: rest => (quote key ++ ":" ++ print value) :: printEntries rest

end

end SeedLogic.Json
