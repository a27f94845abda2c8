import SeedLogic.Dict
import SeedLogic.Text.Decimal

/-!
# Settings

A settings snapshot lists the active location flags, the options with their values and the gear
the player starts with.
-/

namespace SeedLogic

/-- The value of one option. -/
inductive OptionValue where
  | toggle (value : Bool)
  | integer (value : Int64)
  | choice (text : String)
  | selection (names : NameSet)
  | switches (values : Dict String Bool)
deriving DecidableEq

namespace OptionValue

/-- Whether the value counts as enabled. Zero and the empty text do not; selections and switches
always do. -/
def isEnabled : OptionValue → Bool
  | .toggle value => value
  | .integer value => value ≠ 0
  | .choice text => text ≠ ""
  | .selection _ => true
  | .switches _ => true

/-- Whether the value equals a quoted text. An integer is compared by its decimal form; toggles,
selections and switches equal no text. -/
def equals (value : OptionValue) (expected : String) : Bool :=
  match value with
  | .choice text => text = expected
  | .integer value => Text.signedDecimal value.toInt = expected
  | _ => false

/-- Whether a selection lists an entry, or switches turn it on. -/
def contains (value : OptionValue) (entry : String) : Bool :=
  match value with
  | .selection names => names.contains entry
  | .switches values => (values.get? entry).getD false
  | _ => false

/-- The number of an integer value. -/
def integer? : OptionValue → Option Int64
  | .integer value => some value
  | _ => none

/-- The text of a choice. -/
def choice? : OptionValue → Option String
  | .choice text => some text
  | _ => none

end OptionValue

/-- A settings snapshot. -/
structure Settings where
  /-- The active location flags. -/
  flags : NameSet := {}
  /-- The location flags that are active whatever hidden settings say. -/
  certainFlags : NameSet := {}
  options : Dict String OptionValue := {}
  startingGear : Dict String UInt32 := {}
  /-- The version of the randomizer for which the settings were made. -/
  version : Option String := none
deriving DecidableEq, Inhabited

namespace Settings

/-- Whether an option is set and enabled. -/
def isEnabled (s : Settings) (option : String) : Bool :=
  match s.options.get? option with
  | some value => value.isEnabled
  | none => false

/-- The number an option is set to, zero when it has none. -/
def integer (s : Settings) (option : String) : Int64 :=
  ((s.options.get? option).bind OptionValue.integer?).getD 0

/-- Whether an option is set to a quoted text. -/
def equals (s : Settings) (option expected : String) : Bool :=
  match s.options.get? option with
  | some value => value.equals expected
  | none => false

/-- Whether an option is set and contains an entry. -/
def contains (s : Settings) (option entry : String) : Bool :=
  match s.options.get? option with
  | some value => value.contains entry
  | none => false

end Settings

end SeedLogic
