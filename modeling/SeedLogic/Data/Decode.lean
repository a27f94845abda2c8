import SeedLogic.Data.Datum
import SeedLogic.Dict
import SeedLogic.Text.Decimal

/-!
# Between data and typed values

Encoders turn typed values into data; decoders go back and refuse data of another shape. A record
is a table whose keys are field names, or a list of the values of its first fields.
-/

namespace SeedLogic.Datum

/-- The text of a datum. -/
def text? : Datum → Option String
  | .text value => some value
  | _ => none

/-- The truth value of a datum. -/
def boolean? : Datum → Option Bool
  | .boolean value => some value
  | _ => none

/-- The count of a datum: a number of 32 bits. -/
def count? : Datum → Option UInt32
  | .integer value =>
    if 0 ≤ value ∧ value.toNat < UInt32.size then some (UInt32.ofNat value.toNat) else none
  | _ => none

/-- The integer of a datum: a number of 64 bits with a sign. -/
def integer64? : Datum → Option Int64
  | .integer value =>
    if Int64.minValue.toInt ≤ value ∧ value ≤ Int64.maxValue.toInt then some (Int64.ofInt value)
    else none
  | _ => none

/-- The items of a list. -/
def list? {α : Type} (decode : Datum → Option α) : Datum → Option (List α)
  | .list items => items.mapM decode
  | _ => none

/-- The dictionary of a table. The last of several entries with one key counts. -/
def dict? {α : Type} (decode : Datum → Option α) : Datum → Option (Dict String α)
  | .table entries _ =>
    (entries.mapM fun entry => (decode entry.2).map (Prod.mk entry.1)).map Dict.ofList
  | _ => none

/-- The count that a table key stands for: a numeral of 32 bits without leading zeros. -/
def countKey? (key : String) : Option UInt32 :=
  (Text.numeral32? key.toList).filter fun count => Text.decimal count.toNat = key

/-- The dictionary of a table whose keys are counts, written without escapes. -/
def countDict? {α : Type} (decode : Datum → Option α) : Datum → Option (Dict UInt32 α)
  | .table entries true =>
    (entries.mapM fun (numeral, datum) => do
      let key ← countKey? numeral
      let value ← decode datum
      some (key, value)).map Dict.ofList
  | _ => none

/-- The set of the names in a list. -/
def names? (d : Datum) : Option NameSet :=
  (d.list? text?).map NameSet.ofNames

/-- The optional text of a datum, where null stands for none. -/
def optionalText? : Datum → Option (Option String)
  | .null => some none
  | d => d.text?.map some

/-- The fields of a record with the given field names. A table must not repeat a field or have
another one; a list gives the fields in order and may stop early. -/
def record? (fields : List String) : Datum → Option (List (String × Datum))
  | .table entries _ =>
    if (entries.all fun entry => fields.contains entry.1) ∧ (entries.map Prod.fst).Nodup then
      some entries
    else none
  | .list items => if items.length ≤ fields.length then some (fields.zip items) else none
  | _ => none

/-- The fields of a record whose list may go on behind the last field. What stands there does not
count. -/
def openRecord? (fields : List String) : Datum → Option (List (String × Datum))
  | .list items => (Datum.list (items.take fields.length)).record? fields
  | d => d.record? fields

/-- A field that must be present. -/
def field? {α : Type} (record : List (String × Datum)) (name : String)
    (decode : Datum → Option α) : Option α :=
  (record.lookup name).bind decode

/-- A field that may be missing, with the value it then has. -/
def fieldD? {α : Type} (record : List (String × Datum)) (name : String) (default : α)
    (decode : Datum → Option α) : Option α :=
  match record.lookup name with
  | none => some default
  | some d => decode d

/-- The datum of a count. -/
def ofCount (count : UInt32) : Datum := .integer count.toNat

/-- The datum of a list of texts. -/
def ofTexts (texts : List String) : Datum := .list (texts.map .text)

/-- The datum of a set of names. -/
def ofNames (names : NameSet) : Datum := ofTexts names.keys

/-- The datum of a dictionary. -/
def ofDict {α : Type} (encode : α → Datum) (d : Dict String α) : Datum :=
  .table (d.entries.map fun entry => (entry.1, encode entry.2))

/-- The datum of a dictionary whose keys are counts. -/
def ofCountDict {α : Type} (encode : α → Datum) (d : Dict UInt32 α) : Datum :=
  .table (d.entries.map fun entry => (Text.decimal entry.1.toNat, encode entry.2))

/-- The datum of an optional text. -/
def ofOptionalText : Option String → Datum
  | some value => .text value
  | none => .null

end SeedLogic.Datum
