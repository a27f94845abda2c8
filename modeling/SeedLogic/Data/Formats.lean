import SeedLogic.Data.JsonPrinter
import SeedLogic.Data.JsonReader
import SeedLogic.Data.TomlReader

/-!
# Data formats

Files hold data as TOML or as JSON, and events and answers are printed as JSON. Whoever loads or
prints data is given the readers and the printer. They may be any functions between texts and data.
-/

namespace SeedLogic

/-- Readers and a printer for the formats of data. -/
structure DataFormats where
  /-- The datum of a TOML text. -/
  toml : String → Option Datum
  /-- The datum of a JSON text. -/
  json : String → Option Datum
  /-- The JSON text of a datum. -/
  print : Datum → String

namespace DataFormats

/-- The readers and the printer that the program uses. -/
def standard : DataFormats where
  toml := Toml.read?
  json := Json.read?
  print := Json.print

/-- A printed datum is one line. -/
def PrintsLines (formats : DataFormats) : Prop :=
  ∀ datum, '\n' ∉ (formats.print datum).toList

end DataFormats

end SeedLogic
