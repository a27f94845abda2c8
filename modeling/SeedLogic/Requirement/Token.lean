import SeedLogic.Text.Blank
import SeedLogic.Text.Bytes

/-!
# Tokens of a requirement text

A requirement text consists of the four structural characters `&`, `|`, `(`, `)` and of atoms,
the trimmed nonempty text between them. Every token remembers the byte at which it starts.
-/

namespace SeedLogic

/-- A lexical unit of a requirement text. -/
inductive Token where
  | and
  | or
  | opening
  | closing
  | atom (text : String)
deriving DecidableEq, Repr

/-- A token together with the byte offset of its first character. -/
structure PlacedToken where
  token : Token
  position : Nat
deriving DecidableEq, Repr

namespace Token

/-- The token of a structural character. -/
def ofStructural? (c : Char) : Option Token :=
  match c with
  | '&' => some .and
  | '|' => some .or
  | '(' => some .opening
  | ')' => some .closing
  | _ => none

/-- The text of a token as it stands in the requirement. -/
def text : Token → String
  | .and => "&"
  | .or => "|"
  | .opening => "("
  | .closing => ")"
  | .atom text => text

/-- The atom in a run of other characters that starts at byte `start`, unless the run is
blank. -/
def atomIn (start : Nat) (run : List Char) : List PlacedToken :=
  match Text.trim run with
  | [] => []
  | c :: cs => [⟨.atom (.ofList (c :: cs)), start + Text.byteLength (run.takeWhile Text.isBlank)⟩]

/-- Scans the characters from byte `position` on. The characters since the last structural one
stand in `run`, latest first, and began at byte `start`. -/
def scan (start position : Nat) (run : List Char) : List Char → List PlacedToken
  | [] => atomIn start run.reverse
  | c :: cs =>
    match ofStructural? c with
    | some token =>
      atomIn start run.reverse ++ ⟨token, position⟩ ::
        scan (position + c.utf8Size) (position + c.utf8Size) [] cs
    | none => scan start (position + c.utf8Size) (c :: run) cs

/-- The tokens of a requirement text, from left to right. -/
def tokenize (requirement : String) : List PlacedToken :=
  scan 0 0 [] requirement.toList

end Token

end SeedLogic
