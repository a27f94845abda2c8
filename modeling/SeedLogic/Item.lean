import SeedLogic.Text.Cut
import SeedLogic.Text.Decimal

/-!
# Counted items

An item requirement is written `name xN`, where `N` is a numeral that fits in 32 bits. A text of
any other form names an item of which one copy is needed.
-/

namespace SeedLogic

/-- A requirement on holding at least `count` copies of an item. -/
structure ItemRequirement where
  item : String
  count : UInt32
deriving DecidableEq, Repr

namespace ItemRequirement

/-- Reads `name xN`, cut at the last ` x`. The name must not be empty. -/
def parse? (text : String) : Option ItemRequirement := do
  let (name, digits) ← Text.cutLast? [' ', 'x'] text.toList
  let count ← Text.numeral32? digits
  if name = [] then none else some ⟨.ofList name, count⟩

/-- Reads an item requirement. A text without a count asks for one copy. -/
def parse (text : String) : ItemRequirement :=
  (parse? text).getD ⟨text, 1⟩

/-- The requirement as `name xN`. -/
def render (r : ItemRequirement) : String :=
  r.item ++ " x" ++ Text.decimal r.count.toNat

instance : ToString ItemRequirement := ⟨render⟩

end ItemRequirement

end SeedLogic
