import SeedLogic.Data.Datum
import SeedLogic.Requirement.Basic

/-!
# The file format of requirement trees

A tree is a table with one entry: a leaf with its text, or a connective with the list of its
operands.
-/

namespace SeedLogic.Requirement

mutual

/-- The datum of a tree. -/
def toDatum : Requirement → Datum
  | .leaf text => .table [("leaf", .text text)]
  | .all operands => .table [("and", .list (toData operands))]
  | .any operands => .table [("or", .list (toData operands))]

/-- The data of a list of trees. -/
def toData : List Requirement → List Datum
  | [] => []
  | r :: rs => toDatum r :: toData rs

end

mutual

/-- The tree of a datum. -/
def ofDatum? : Datum → Option Requirement
  | .table [("leaf", .text text)] _ => some (.leaf text)
  | .table [("and", .list items)] _ => (ofData? items).map .all
  | .table [("or", .list items)] _ => (ofData? items).map .any
  | _ => none

/-- The trees of a list of data. -/
def ofData? : List Datum → Option (List Requirement)
  | [] => some []
  | d :: ds => do
    let r ← ofDatum? d
    let rs ← ofData? ds
    some (r :: rs)

end

end SeedLogic.Requirement
