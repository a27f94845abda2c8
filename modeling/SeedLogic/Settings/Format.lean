import SeedLogic.Data.Decode
import SeedLogic.Settings.Predetermined

/-!
# The file format of settings

The kind of an option value is recognised from its shape alone, and the five shapes exclude one
another. A settings record leaves out fields that have their default value only when read; when
written, only an unset version is left out.
-/

namespace SeedLogic

/-- The datum of an option value. -/
def OptionValue.toDatum : OptionValue → Datum
  | .toggle value => .boolean value
  | .integer value => .integer value.toInt
  | .choice text => .text text
  | .selection names => .ofNames names
  | .switches values => .ofDict .boolean values

/-- The option value of a datum. -/
def OptionValue.ofDatum? (d : Datum) : Option OptionValue :=
  match d with
  | .boolean value => some (.toggle value)
  | .integer _ => d.integer64?.map .integer
  | .text text => some (.choice text)
  | .list _ => d.names?.map .selection
  | .table _ _ => (d.dict? Datum.boolean?).map .switches
  | _ => none

namespace Settings

/-- The field names of a settings record. -/
def fieldNames : List String :=
  ["flags", "certain_flags", "options", "starting_gear", "version"]

/-- The datum of a settings snapshot. -/
def toDatum (s : Settings) : Datum :=
  .table <|
    [("flags", .ofNames s.flags), ("certain_flags", .ofNames s.certainFlags),
      ("options", .ofDict OptionValue.toDatum s.options),
      ("starting_gear", .ofDict .ofCount s.startingGear)] ++
    match s.version with
    | some version => [("version", .text version)]
    | none => []

/-- The settings snapshot of a datum. -/
def ofDatum? (d : Datum) : Option Settings := do
  let record ← d.record? fieldNames
  let flags ← Datum.fieldD? record "flags" {} Datum.names?
  let certainFlags ← Datum.fieldD? record "certain_flags" {} Datum.names?
  let options ← Datum.fieldD? record "options" {} (Datum.dict? OptionValue.ofDatum?)
  let startingGear ← Datum.fieldD? record "starting_gear" {} (Datum.dict? Datum.count?)
  let version ← Datum.fieldD? record "version" none Datum.optionalText?
  some { flags, certainFlags, options, startingGear, version }

end Settings

/-- The datum of the predetermined items. -/
def PredeterminedItems.toDatum (p : PredeterminedItems) : Datum :=
  .table [("starting", .ofDict .ofCount p.starting), ("impossible", .ofDict .ofCount p.impossible)]

end SeedLogic
