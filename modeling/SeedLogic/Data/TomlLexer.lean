import SeedLogic.Text.Decimal

/-!
# Lexemes of a TOML text

A TOML text is cut into punctuation, words, quoted texts, blanks and line ends; comments are
dropped. A word goes on up to the next punctuation, blank, comment or line end, so quotes may stand
inside it. Whether it is a proper key or value depends on where it stands and is decided later.
-/

namespace SeedLogic.Toml

/-- A lexical unit of a TOML text. -/
inductive Lexeme where
  | newline
  /-- A run of spaces and tabs, as long as it goes. -/
  | blank (chars : List Char)
  | equals
  | dot
  | comma
  | openBracket
  | closeBracket
  | openBrace
  | closeBrace
  | word (chars : List Char)
  | text (value : String) (multiline : Bool)
deriving DecidableEq

/-- A space or a tab. -/
def isBlank (c : Char) : Bool :=
  c = ' ' || c = '\t'

/-- A control character that may stand nowhere. -/
def isForbidden (c : Char) : Bool :=
  (c.toNat < 0x20 && c ≠ '\t') || c.toNat = 0x7F

/-- The lexeme of a punctuation character. -/
def punctuation? (c : Char) : Option Lexeme :=
  match c with
  | '=' => some .equals
  | '.' => some .dot
  | ',' => some .comma
  | '[' => some .openBracket
  | ']' => some .closeBracket
  | '\x7b' => some .openBrace
  | '\x7d' => some .closeBrace
  | _ => none

/-- A character that may stand inside a word. -/
def isWordChar (c : Char) : Bool :=
  !((punctuation? c).isSome || isBlank c || c = '#' || c = '\r' || c = '\n')

/-- The character with a code point written in hexadecimal digits, unless there is none. -/
def codePoint? (digits : List Char) : Option Char := do
  let values ← digits.mapM Text.hexDigit?
  let n := values.foldl (fun high digit => 16 * high + digit) 0
  if n.isValidChar then some (Char.ofNat n) else none

/-- The character that a one-letter escape stands for. -/
def shortEscape? (c : Char) : Option Char :=
  match c with
  | 'b' => some '\x08'
  | 't' => some '\t'
  | 'n' => some '\n'
  | 'f' => some '\x0c'
  | 'r' => some '\r'
  | 'e' => some '\x1b'
  | '"' => some '"'
  | '\\' => some '\\'
  | _ => none

/-- The rest of a basic text on one line, and what follows its closing quote. Characters read so
far stand latest first. -/
def basic? (read : List Char) : List Char → Option (List Char × List Char)
  | [] => none
  | '"' :: rest => some (read.reverse, rest)
  | '\\' :: 'x' :: a :: b :: rest => do
    let c ← codePoint? [a, b]
    basic? (c :: read) rest
  | '\\' :: 'u' :: a :: b :: c :: d :: rest => do
    let c ← codePoint? [a, b, c, d]
    basic? (c :: read) rest
  | '\\' :: 'U' :: a :: b :: c :: d :: e :: f :: g :: h :: rest => do
    let c ← codePoint? [a, b, c, d, e, f, g, h]
    basic? (c :: read) rest
  | '\\' :: c :: rest => do
    let c ← shortEscape? c
    basic? (c :: read) rest
  | c :: rest => if isForbidden c then none else basic? (c :: read) rest

/-- The rest of a literal text on one line, and what follows its closing quote. -/
def literal? (read : List Char) : List Char → Option (List Char × List Char)
  | [] => none
  | '\'' :: rest => some (read.reverse, rest)
  | c :: rest => if isForbidden c then none else literal? (c :: read) rest

/-- Whether only blanks stand before the end of the line. -/
def endsLine (cs : List Char) : Bool :=
  match cs.dropWhile isBlank with
  | '\n' :: _ => true
  | '\r' :: '\n' :: _ => true
  | _ => false

/-- The rest of a basic text over several lines, and what follows its closing quotes. After a
backslash at the end of a line, blanks and line ends are skipped. -/
def multilineBasic? (skipping : Bool) (read : List Char) :
    List Char → Option (List Char × List Char)
  | [] => none
  | '"' :: '"' :: '"' :: '"' :: '"' :: rest => some (('"' :: '"' :: read).reverse, rest)
  | '"' :: '"' :: '"' :: '"' :: rest => some (('"' :: read).reverse, rest)
  | '"' :: '"' :: '"' :: rest => some (read.reverse, rest)
  | '\\' :: 'x' :: a :: b :: rest => do
    let c ← codePoint? [a, b]
    multilineBasic? false (c :: read) rest
  | '\\' :: 'u' :: a :: b :: c :: d :: rest => do
    let c ← codePoint? [a, b, c, d]
    multilineBasic? false (c :: read) rest
  | '\\' :: 'U' :: a :: b :: c :: d :: e :: f :: g :: h :: rest => do
    let c ← codePoint? [a, b, c, d, e, f, g, h]
    multilineBasic? false (c :: read) rest
  | '\\' :: c :: rest =>
    if endsLine (c :: rest) then multilineBasic? true read rest
    else do
      let c ← shortEscape? c
      multilineBasic? false (c :: read) rest
  | '\r' :: '\n' :: rest =>
    multilineBasic? skipping (if skipping then read else '\n' :: '\r' :: read) rest
  | c :: rest =>
    if skipping && (isBlank c || c = '\n') then multilineBasic? true read rest
    else if isForbidden c && c ≠ '\n' then none
    else multilineBasic? false (c :: read) rest

/-- The rest of a literal text over several lines, and what follows its closing quotes. -/
def multilineLiteral? (read : List Char) : List Char → Option (List Char × List Char)
  | [] => none
  | '\'' :: '\'' :: '\'' :: '\'' :: '\'' :: rest => some (('\'' :: '\'' :: read).reverse, rest)
  | '\'' :: '\'' :: '\'' :: '\'' :: rest => some (('\'' :: read).reverse, rest)
  | '\'' :: '\'' :: '\'' :: rest => some (read.reverse, rest)
  | '\r' :: '\n' :: rest => multilineLiteral? ('\n' :: '\r' :: read) rest
  | c :: rest =>
    if isForbidden c && c ≠ '\n' then none else multilineLiteral? (c :: read) rest

/-- A text over several lines does not start with the line end behind its opening quotes. -/
def dropFirstNewline : List Char → List Char
  | '\n' :: rest => rest
  | '\r' :: '\n' :: rest => rest
  | rest => rest

/-- The quoted text at the start, behind its first quote, and what follows it. -/
def quoted? (quote : Char) (cs : List Char) : Option (Lexeme × List Char) :=
  let basic := quote = '"'
  match cs with
  | a :: b :: rest =>
    if a = quote ∧ b = quote then
      let body := dropFirstNewline rest
      (if basic then multilineBasic? false [] body else multilineLiteral? [] body).map
        fun (chars, rest) => (.text (.ofList chars) true, rest)
    else
      (if basic then basic? [] cs else literal? [] cs).map
        fun (chars, rest) => (.text (.ofList chars) false, rest)
  | _ =>
    (if basic then basic? [] cs else literal? [] cs).map
      fun (chars, rest) => (.text (.ofList chars) false, rest)

/-- The characters of a comment, and what follows it. The carriage return of a line end belongs to
the line end. -/
def comment (cs : List Char) : List Char × List Char :=
  match cs.span (· ≠ '\n') with
  | (body, []) => (body, [])
  | (body, rest) =>
    if body.getLast? = some '\r' then (body.dropLast, rest) else (body, rest)

/-- The lexemes of a text, at most `fuel` of them and their comments; those found so far stand
latest first. -/
def lexFrom? (fuel : Nat) (found : List Lexeme) (cs : List Char) : Option (List Lexeme) :=
  match fuel, cs with
  | _, [] => some found.reverse
  | 0, _ => none
  | fuel + 1, '\r' :: '\n' :: rest => lexFrom? fuel (.newline :: found) rest
  | fuel + 1, c :: rest =>
    if c = '\n' then lexFrom? fuel (.newline :: found) rest
    else if isBlank c then
      lexFrom? fuel (.blank (c :: rest.takeWhile isBlank) :: found) (rest.dropWhile isBlank)
    else if c = '#' then
      let (body, rest) := comment rest
      if body.any isForbidden then none else lexFrom? fuel found rest
    else if c = '"' || c = '\'' then
      match quoted? c rest with
      | some (lexeme, rest) => lexFrom? fuel (lexeme :: found) rest
      | none => none
    else
      match punctuation? c with
      | some lexeme => lexFrom? fuel (lexeme :: found) rest
      | none =>
        if isWordChar c then
          lexFrom? fuel (.word (c :: rest.takeWhile isWordChar) :: found)
            (rest.dropWhile isWordChar)
        else none

/-- The lexemes of a TOML text. Every step takes at least one character. -/
def lex? (text : String) : Option (List Lexeme) :=
  let chars := match text.toList with
    | '\uFEFF' :: rest => rest
    | chars => chars
  lexFrom? chars.length [] chars

end SeedLogic.Toml
