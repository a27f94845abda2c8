/-!
# Structured data

A datum is what a data file holds before its fields are given a meaning. The entries of a table
keep the order in which they were written, and a key may occur more than once. A key that was
written with an escape still is its text, but stands for no number.
-/

namespace SeedLogic

/-- A value read from, or written to, a data file. -/
inductive Datum where
  | null
  | boolean (value : Bool)
  | integer (value : Int)
  /-- A scalar of a kind that no record has a place for, such as a number with a fraction. -/
  | otherScalar
  | text (value : String)
  | list (items : List Datum)
  /-- A table, and whether all its keys were written without escapes. -/
  | table (entries : List (String × Datum)) (plainKeys : Bool := true)
deriving Repr, Inhabited

end SeedLogic
