import SeedLogic.Data.TomlLexer
import SeedLogic.Data.TomlScalar

/-!
# Reading TOML

A document is a list of headers and assignments. A key is assigned once, a table has one header,
and a table that arises from dotted keys or from an inline value has none. A header in double
brackets starts the next table of a list; a way through such a list leads through its last table.
Brackets are nested only so deep, and so are dotted keys.
-/

namespace SeedLogic.Toml

/-- How a table came into being. -/
inductive TableOrigin where
  /-- On the way to the table of a header. -/
  | implicit
  /-- By a header of its own. -/
  | header
  /-- On the way to a dotted key. -/
  | dotted
deriving DecidableEq

/-- What a key stands for while a document is read. -/
inductive Node where
  | value (datum : Datum)
  | table (origin : TableOrigin) (entries : List (String × Node))
  /-- The tables of headers in double brackets: the finished ones, latest first, and the last
  one. -/
  | tables (earlier : List Datum) (last : List (String × Node))

/-- The entries of a table while a document is read. -/
abbrev Entries := List (String × Node)

mutual

/-- The datum of a node. -/
def Node.toDatum : Node → Datum
  | .value datum => datum
  | .table _ entries => .table (Node.entriesToData entries)
  | .tables earlier last => .list (Datum.table (Node.entriesToData last) :: earlier).reverse

/-- The data of the entries of a table. -/
def Node.entriesToData : List (String × Node) → List (String × Datum)
  | [] => []
  | (key, node) :: rest => (key, node.toDatum) :: Node.entriesToData rest

end

/-- Changes the entry of a key, or adds one at the end. -/
def updateEntry (key : String) (change : Option Node → Option Node) : Entries → Option Entries
  | [] => (change none).map fun node => [(key, node)]
  | (k, node) :: rest =>
    if k = key then (change (some node)).map fun node => (k, node) :: rest
    else (updateEntry key change rest).map ((k, node) :: ·)

/-! ### Keys and headers -/

/-- Assigns a dotted key that is still free. The key may lead through tables that have no header
yet, but its value goes into a table that arose from dotted keys. -/
def assign (datum : Datum) : List String → Entries → Option Entries
  | [], _ => none
  | [key], entries =>
    updateEntry key (fun
      | none => some (.value datum)
      | some _ => none) entries
  | key :: path, entries =>
    updateEntry key (fun
      | none => (assign datum path []).map (.table .dotted)
      | some (.table .dotted inner) => (assign datum path inner).map (.table .dotted)
      | some (.table .implicit inner) =>
        if path.length = 1 then none else (assign datum path inner).map (.table .implicit)
      | some _ => none) entries

/-- Changes the table of a node, or the last of its tables. A missing table arises on the way. -/
def inTable (change : Entries → Option Entries) : Option Node → Option Node
  | none => (change []).map (.table .implicit)
  | some (.table origin entries) => (change entries).map (.table origin)
  | some (.tables earlier last) => (change last).map (.tables earlier)
  | some (.value _) => none

/-- Changes what a header stands for. -/
def atHeader (change : Option Node → Option Node) : List String → Entries → Option Entries
  | [], _ => none
  | [key], entries => updateEntry key change entries
  | key :: path, entries => updateEntry key (inTable (atHeader change path)) entries

/-- Opens a table that has not been opened before. -/
def openTable : Option Node → Option Node
  | none => some (.table .header [])
  | some (.table .implicit entries) => some (.table .header entries)
  | some _ => none

/-- Opens the next table of a list of tables. -/
def openNextTable : Option Node → Option Node
  | none => some (.tables [] [])
  | some (.tables earlier last) =>
    some (.tables (.table (Node.entriesToData last) :: earlier) [])
  | some _ => none

/-- Assigns a dotted key in the table of a header, or outside of all when there has been no header
yet. -/
def assignUnder (current : List String) (datum : Datum) (path : List String)
    (entries : Entries) : Option Entries :=
  if current.isEmpty then assign datum path entries
  else atHeader (inTable (assign datum path)) current entries

/-! ### Keys and values in a text -/

/-- How deep brackets may be nested, and how many keys a dotted key may join. -/
def maxNesting : Nat := 80

/-- The key of a lexeme. -/
def key? : Lexeme → Option String
  | .word chars =>
    if chars.all fun c => c.isAlphanum || c = '_' || c = '-' then some (.ofList chars) else none
  | .text value false => some value
  | _ => none

/-- The keys of a dotted key with blanks around them, and what follows the last one. -/
def keys? : List Lexeme → Option (List String × List Lexeme)
  | [] => none
  | .blank _ :: rest => keys? rest
  | lexeme :: .dot :: rest => do
    let key ← key? lexeme
    let (path, rest) ← keys? rest
    some (key :: path, rest)
  | lexeme :: .blank _ :: .dot :: rest => do
    let key ← key? lexeme
    let (path, rest) ← keys? rest
    some (key :: path, rest)
  | lexeme :: rest => (key? lexeme).map fun key => ([key], rest)

/-- The lexemes without the blank at their start. -/
def skipBlank : List Lexeme → List Lexeme
  | .blank _ :: rest => rest
  | lexemes => lexemes

/-- The lexemes without the blanks and line ends at their start. -/
def skipLines : List Lexeme → List Lexeme
  | .blank _ :: rest => skipLines rest
  | .newline :: rest => skipLines rest
  | lexemes => lexemes

/-- A dotted key, and what follows it and its blank. -/
def keyPath? (lexemes : List Lexeme) : Option (List String × List Lexeme) := do
  let (path, rest) ← keys? lexemes
  if maxNesting < path.length then none else some (path, skipBlank rest)

/-- The characters of the words and dots at the start, and what follows them. A blank between two
words is taken with them, since only a date and a time stand side by side. -/
def spanScalar : List Lexeme → List Char × List Lexeme
  | .word chars :: rest =>
    let (more, rest) := spanScalar rest
    (chars ++ more, rest)
  | .dot :: rest =>
    let (more, rest) := spanScalar rest
    ('.' :: more, rest)
  | .blank blanks :: .word chars :: rest =>
    let (more, rest) := spanScalar rest
    (blanks ++ chars ++ more, rest)
  | rest => ([], rest)

mutual

/-- A value of at most `fuel` lexemes in which at most `room` brackets are nested, and what follows
it. -/
def value? : Nat → Nat → List Lexeme → Option (Datum × List Lexeme)
  | 0, _, _ => none
  | fuel + 1, room, lexemes =>
    match lexemes, room with
    | .text value _ :: rest, _ => some (.text value, rest)
    | .openBracket :: rest, room + 1 => items? fuel room [] (skipLines rest)
    | .openBrace :: rest, room + 1 => inlineEntries? fuel room [] (skipLines rest)
    | lexemes, _ =>
      let (chars, rest) := spanScalar lexemes
      (scalar? chars).map (·, rest)

/-- The rest of an array, and what follows it; the items read so far stand latest first. -/
def items? : Nat → Nat → List Datum → List Lexeme → Option (Datum × List Lexeme)
  | 0, _, _, _ => none
  | fuel + 1, room, items, lexemes =>
    match lexemes with
    | .closeBracket :: rest => some (.list items.reverse, rest)
    | lexemes => do
      let (item, rest) ← value? fuel room lexemes
      match skipLines rest with
      | .comma :: rest => items? fuel room (item :: items) (skipLines rest)
      | .closeBracket :: rest => some (.list (item :: items).reverse, rest)
      | _ => none

/-- The rest of an inline table, and what follows it. Lines may end anywhere but inside a key. -/
def inlineEntries? : Nat → Nat → Entries → List Lexeme → Option (Datum × List Lexeme)
  | 0, _, _, _ => none
  | fuel + 1, room, entries, lexemes =>
    match lexemes with
    | .closeBrace :: rest => some (.table (Node.entriesToData entries), rest)
    | lexemes => do
      let (path, rest) ← keyPath? lexemes
      match skipLines rest with
      | .equals :: rest => do
        let (datum, rest) ← value? fuel room (skipLines rest)
        let entries ← assign datum path entries
        match skipLines rest with
        | .comma :: rest => inlineEntries? fuel room entries (skipLines rest)
        | .closeBrace :: rest => some (.table (Node.entriesToData entries), rest)
        | _ => none
      | _ => none

end

/-! ### Lines -/

/-- A line of a document. -/
inductive Line where
  | header (path : List String)
  /-- A header in double brackets. -/
  | listHeader (path : List String)
  | assignment (path : List String) (datum : Datum)

/-- The line at the start, and what follows it. -/
def line? (fuel : Nat) (lexemes : List Lexeme) : Option (Line × List Lexeme) :=
  match lexemes with
  | .openBracket :: .openBracket :: rest => do
    let (path, rest) ← keyPath? rest
    match rest with
    | .closeBracket :: .closeBracket :: rest => some (.listHeader path, rest)
    | _ => none
  | .openBracket :: rest => do
    let (path, rest) ← keyPath? rest
    match rest with
    | .closeBracket :: rest => some (.header path, rest)
    | _ => none
  | lexemes => do
    let (path, rest) ← keyPath? lexemes
    match rest with
    | .equals :: rest => do
      let (datum, rest) ← value? fuel maxNesting (skipBlank rest)
      some (.assignment path datum, rest)
    | _ => none

/-- Reads lines into the tables read so far; `current` is the path of the last header. -/
def document? (fuel : Nat) (current : List String) (entries : Entries)
    (lexemes : List Lexeme) : Option Entries :=
  match fuel, lexemes with
  | _, [] => some entries
  | 0, _ => none
  | fuel + 1, .newline :: rest => document? fuel current entries rest
  | fuel + 1, .blank _ :: rest => document? fuel current entries rest
  | fuel + 1, lexemes => do
    let (line, rest) ← line? (fuel + 1) lexemes
    let rest := skipBlank rest
    if !(rest.isEmpty || rest.head? = some .newline) then none
    match line with
    | .header path => do
      let entries ← atHeader openTable path entries
      document? fuel path entries rest
    | .listHeader path => do
      let entries ← atHeader openNextTable path entries
      document? fuel path entries rest
    | .assignment path datum => do
      let entries ← assignUnder current datum path entries
      document? fuel current entries rest

/-- Reads a TOML text. No value has more lexemes than the text, and every line has at least one. -/
def read? (text : String) : Option Datum := do
  let lexemes ← lex? text
  let entries ← document? lexemes.length [] [] lexemes
  some (.table (Node.entriesToData entries))

end SeedLogic.Toml
