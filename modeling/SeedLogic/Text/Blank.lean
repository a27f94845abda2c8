/-!
# Blank characters and trimming

The blank characters are those with the Unicode property `White_Space`. Trimming removes the
longest blank run at either end and keeps everything between.
-/

namespace SeedLogic.Text

/-- The code points with the Unicode property `White_Space`. -/
def blankPoints : List Nat :=
  [0x09, 0x0A, 0x0B, 0x0C, 0x0D, 0x20, 0x85, 0xA0, 0x1680, 0x2000, 0x2001, 0x2002, 0x2003,
    0x2004, 0x2005, 0x2006, 0x2007, 0x2008, 0x2009, 0x200A, 0x2028, 0x2029, 0x202F, 0x205F,
    0x3000]

/-- A character is blank when its code point is listed in `blankPoints`. -/
def isBlank (c : Char) : Bool :=
  blankPoints.contains c.toNat

/-- Removes the blank run at the start. -/
def trimStart (cs : List Char) : List Char :=
  cs.dropWhile isBlank

/-- Removes the blank run at the end. -/
def trimEnd (cs : List Char) : List Char :=
  (cs.reverse.dropWhile isBlank).reverse

/-- Removes the blank runs at both ends. -/
def trim (cs : List Char) : List Char :=
  trimEnd (trimStart cs)

end SeedLogic.Text
