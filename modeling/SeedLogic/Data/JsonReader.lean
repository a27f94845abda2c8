import SeedLogic.Data.Datum
import SeedLogic.Text.Decimal

/-!
# Reading JSON

A JSON text is first cut into lexemes and then assembled with a stack of open lists and tables.
Both passes are one left-to-right walk. The grammar is the strict one: no comments, no trailing
commas, no leading zeros, no bare control characters inside strings, and surrogate escapes only in
pairs.
-/

namespace SeedLogic.Json

/-- A lexical unit of a JSON text. -/
inductive Lexeme where
  | openTable
  | closeTable
  | openList
  | closeList
  | colon
  | comma
  | scalar (value : Datum)
  /-- A string, and whether it was written without escapes. -/
  | text (value : String) (plain : Bool)

/-- What the lexer is in the middle of. Characters collected so far stand latest first. A string
is plain as long as no escape has occurred in it. -/
inductive LexState where
  /-- Between two lexemes. -/
  | between
  /-- Inside a word or a number. -/
  | word (chars : List Char)
  /-- Inside a string. -/
  | string (chars : List Char) (plain : Bool)
  /-- After a backslash in a string. -/
  | escape (chars : List Char)
  /-- Inside the four hexadecimal digits of an escape, after the first half of a surrogate pair
  if there was one. -/
  | code (chars : List Char) (high : Option Nat) (value digits : Nat)
  /-- After the first half of a surrogate pair, where a backslash must follow. -/
  | pairBackslash (chars : List Char) (high : Nat)
  /-- After the first half of a surrogate pair and a backslash, where `u` must follow. -/
  | pairLetter (chars : List Char) (high : Nat)

/-- The four blank characters of JSON. -/
def isSpace (c : Char) : Bool :=
  c = ' ' || c = '\t' || c = '\n' || c = '\r'

/-- The lexeme of a structural character. -/
def structural? (c : Char) : Option Lexeme :=
  match c with
  | '\x7b' => some .openTable
  | '\x7d' => some .closeTable
  | '[' => some .openList
  | ']' => some .closeList
  | ':' => some .colon
  | ',' => some .comma
  | _ => none

/-- The digits at the start of a text, and what follows them. -/
def spanDigits (cs : List Char) : List Char × List Char :=
  cs.span Char.isDigit

/-- Whether a text is what may follow the whole part of a number: a fraction, an exponent, or
both. -/
def isNumberTail (cs : List Char) : Bool :=
  let afterFraction : Option (List Char) :=
    match cs with
    | '.' :: rest => if (spanDigits rest).1.isEmpty then none else some (spanDigits rest).2
    | rest => some rest
  match afterFraction with
  | none => false
  | some [] => true
  | some (e :: rest) =>
    let digits := match rest with
      | '+' :: digits => digits
      | '-' :: digits => digits
      | digits => digits
    (e = 'e' || e = 'E') && !digits.isEmpty && digits.all Char.isDigit

/-- The number that a text without its sign denotes. A number with a fraction or an exponent, one
beyond 64 bits, and a zero with a minus sign, are not integers. -/
def number? (negative : Bool) (cs : List Char) : Option Datum :=
  let (whole, tail) := spanDigits cs
  if whole.isEmpty || (whole.length > 1 && whole.head? = some '0') || !isNumberTail tail then none
  else if !tail.isEmpty then some .otherScalar
  else
    match Text.numeralBelow? UInt64.size whole with
    | none => some .otherScalar
    | some 0 => some (if negative then .otherScalar else .integer 0)
    | some n => some (.integer (if negative then -n else n))

/-- The value of a bare word: a number or one of three names. -/
def word? (cs : List Char) : Option Datum :=
  match cs with
  | '-' :: rest => number? true rest
  | ['t', 'r', 'u', 'e'] => some (.boolean true)
  | ['f', 'a', 'l', 's', 'e'] => some (.boolean false)
  | ['n', 'u', 'l', 'l'] => some .null
  | cs => number? false cs

/-- The character that a one-letter escape stands for. -/
def shortEscape? (c : Char) : Option Char :=
  match c with
  | '"' => some '"'
  | '\\' => some '\\'
  | '/' => some '/'
  | 'b' => some '\x08'
  | 'f' => some '\x0c'
  | 'n' => some '\n'
  | 'r' => some '\r'
  | 't' => some '\t'
  | _ => none

/-- The state after a complete hexadecimal escape. -/
def afterCode? (chars : List Char) (high : Option Nat) (value : Nat) : Option LexState :=
  match high with
  | none =>
    if 0xD800 ≤ value ∧ value < 0xDC00 then some (.pairBackslash chars value)
    else if 0xDC00 ≤ value ∧ value < 0xE000 then none
    else some (.string (Char.ofNat value :: chars) false)
  | some high =>
    if 0xDC00 ≤ value ∧ value < 0xE000 then
      some (.string (Char.ofNat (0x10000 + (high - 0xD800) * 0x400 + (value - 0xDC00)) :: chars)
        false)
    else none

/-- One step between lexemes. -/
def stepBetween? (found : List Lexeme) (c : Char) : Option (LexState × List Lexeme) :=
  if isSpace c then some (.between, found)
  else if c = '"' then some (.string [] true, found)
  else
    match structural? c with
    | some lexeme => some (.between, lexeme :: found)
    | none => some (.word [c], found)

/-- One step of the lexer; the lexemes found so far stand latest first. -/
def step? (state : LexState) (found : List Lexeme) (c : Char) :
    Option (LexState × List Lexeme) :=
  match state with
  | .between => stepBetween? found c
  | .word chars =>
    if isSpace c || c = '"' || (structural? c).isSome then do
      let value ← word? chars.reverse
      stepBetween? (.scalar value :: found) c
    else some (.word (c :: chars), found)
  | .string chars plain =>
    if c = '"' then some (.between, .text (.ofList chars.reverse) plain :: found)
    else if c = '\\' then some (.escape chars, found)
    else if c.toNat < 0x20 then none
    else some (.string (c :: chars) plain, found)
  | .escape chars =>
    if c = 'u' then some (.code chars none 0 0, found)
    else do
      let plain ← shortEscape? c
      some (.string (plain :: chars) false, found)
  | .code chars high value digits => do
    let digit ← Text.hexDigit? c
    let value := 16 * value + digit
    if digits = 3 then do
      let state ← afterCode? chars high value
      some (state, found)
    else some (.code chars high value (digits + 1), found)
  | .pairBackslash chars high =>
    if c = '\\' then some (.pairLetter chars high, found) else none
  | .pairLetter chars high =>
    if c = 'u' then some (.code chars (some high) 0 0, found) else none

/-- The lexemes of a text, starting from a state. -/
def lexFrom? (state : LexState) (found : List Lexeme) : List Char → Option (List Lexeme)
  | [] =>
    match state with
    | .between => some found.reverse
    | .word chars => do
      let value ← word? chars.reverse
      some (Lexeme.scalar value :: found).reverse
    | _ => none
  | c :: cs =>
    match step? state found c with
    | some (state, found) => lexFrom? state found cs
    | none => none

/-- The lexemes of a text. -/
def lex? (text : String) : Option (List Lexeme) :=
  lexFrom? .between [] text.toList

/-- A table that is still open, with its entries latest first. -/
structure OpenTable where
  entries : List (String × Datum) := []
  plainKeys : Bool := true

/-- A key of a table whose value is still missing. -/
structure OpenKey where
  text : String
  plain : Bool

/-- The table with one more entry. -/
def OpenTable.add (table : OpenTable) (key : OpenKey) (value : Datum) : OpenTable where
  entries := (key.text, value) :: table.entries
  plainKeys := table.plainKeys && key.plain

/-- The finished table. -/
def OpenTable.toDatum (table : OpenTable) : Datum :=
  .table table.entries.reverse table.plainKeys

/-- A list or table that is still open, with its contents latest first. -/
inductive Frame where
  | list (items : List Datum)
  | table (table : OpenTable) (key : OpenKey)

/-- What may come next. -/
inductive Expected where
  | value
  /-- A value or the end of a list that has just been opened. -/
  | valueOrEnd
  /-- A key or the end of a table that has just been opened. -/
  | keyOrEnd (table : OpenTable)
  | key (table : OpenTable)
  | colon (table : OpenTable) (key : OpenKey)
  | commaOrEnd
  /-- A comma or the end of a table whose last entry is complete. -/
  | commaOrTableEnd (table : OpenTable)
  | nothing (value : Datum)

/-- Puts a finished value into the innermost open list or table. -/
def place (value : Datum) : List Frame → Expected × List Frame
  | [] => (.nothing value, [])
  | .list items :: outer => (.commaOrEnd, .list (value :: items) :: outer)
  | .table table key :: outer => (.commaOrTableEnd (table.add key value), outer)

/-- One step of the assembly. While a table waits for its next key its entries travel in the
expectation; while it waits for a value they lie on the stack. -/
def assembleStep? (expected : Expected) (frames : List Frame) (lexeme : Lexeme) :
    Option (Expected × List Frame) :=
  let value? : Option (Expected × List Frame) :=
    match lexeme with
    | .scalar value => some (place value frames)
    | .text value _ => some (place (.text value) frames)
    | .openList => some (.valueOrEnd, .list [] :: frames)
    | .openTable => some (.keyOrEnd {}, frames)
    | _ => none
  match expected with
  | .value => value?
  | .valueOrEnd =>
    match lexeme, frames with
    | .closeList, .list items :: outer => some (place (.list items.reverse) outer)
    | _, _ => value?
  | .keyOrEnd table =>
    match lexeme with
    | .closeTable => some (place table.toDatum frames)
    | .text key plain => some (.colon table ⟨key, plain⟩, frames)
    | _ => none
  | .key table =>
    match lexeme with
    | .text key plain => some (.colon table ⟨key, plain⟩, frames)
    | _ => none
  | .colon table key =>
    match lexeme with
    | .colon => some (.value, .table table key :: frames)
    | _ => none
  | .commaOrEnd =>
    match lexeme, frames with
    | .comma, frames => some (.value, frames)
    | .closeList, .list items :: outer => some (place (.list items.reverse) outer)
    | _, _ => none
  | .commaOrTableEnd table =>
    match lexeme with
    | .comma => some (.key table, frames)
    | .closeTable => some (place table.toDatum frames)
    | _ => none
  | .nothing _ => none

/-- Assembles lexemes, starting from an expectation and a stack of open lists and tables. -/
def assemble? (expected : Expected) (frames : List Frame) : List Lexeme → Option Datum
  | [] =>
    match expected with
    | .nothing value => some value
    | _ => none
  | lexeme :: rest =>
    match assembleStep? expected frames lexeme with
    | some (expected, frames) => assemble? expected frames rest
    | none => none

/-- Reads a JSON text. -/
def read? (text : String) : Option Datum := do
  let lexemes ← lex? text
  assemble? .value [] lexemes

end SeedLogic.Json
