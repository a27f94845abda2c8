import SeedLogic.Requirement.Basic
import SeedLogic.Settings.Predetermined
import SeedLogic.Tables.Lookup

/-!
# Meaning of an atom

An atom of a requirement text may name a macro, test an option, refer to another location, ask
for an item that the settings fix, or stand for defeating a boss. The first rule that applies, in
this order, decides; an atom to which none applies is a plain item requirement.
-/

namespace SeedLogic

/-- The text between quotes at both ends, unless it is empty or holds another quote. -/
def quoted? (cs : List Char) : Option String := do
  let opened ← Text.strip? ['"'] cs
  let inner ← Text.stripEnd? ['"'] opened
  if inner.isEmpty || inner.contains '"' then none else some (.ofList inner)

/-- The quoted text that follows a fixed lead. -/
def quotedAfter? (lead : String) (cs : List Char) : Option String :=
  (Text.strip? lead.toList cs).bind quoted?

/-- What a conditional asks of an option. -/
inductive Comparison where
  | enabled
  | disabled
  | equals (value : String)
  | differs (value : String)
  | contains (entry : String)
  | lacks (entry : String)
deriving DecidableEq, Repr

/-- An atom that tests an option, written `Option "name" …`. -/
structure Conditional where
  option : String
  comparison : Comparison
deriving DecidableEq, Repr

namespace Conditional

/-- Reads what follows the name of the option. -/
def comparison? (tail : List Char) : Option Comparison :=
  if tail = " Enabled".toList then some .enabled
  else if tail = " Disabled".toList then some .disabled
  else
    (quotedAfter? " Is " tail).map .equals
      <|> (quotedAfter? " Is Not " tail).map .differs
      <|> (quotedAfter? " Contains " tail).map .contains
      <|> (quotedAfter? " Does Not Contain " tail).map .lacks

/-- Reads a conditional. -/
def parse? (atom : String) : Option Conditional := do
  let rest ← Text.strip? "Option \"".toList atom.toList
  let (option, tail) ← Text.cutFirst? ['"'] rest
  if option.isEmpty then none
  let comparison ← comparison? tail
  some ⟨.ofList option, comparison⟩

/-- Whether a conditional holds under a settings snapshot. An unset option counts as disabled,
different from every text and without entries. -/
def holds (c : Conditional) (s : Settings) : Bool :=
  match c.comparison with
  | .enabled => s.isEnabled c.option
  | .disabled => !s.isEnabled c.option
  | .equals value => s.equals c.option value
  | .differs value => !s.equals c.option value
  | .contains entry => s.contains c.option entry
  | .lacks entry => !s.contains c.option entry

end Conditional

/-- What an atom that stands for a boss becomes. -/
inductive BossMeaning where
  /-- The boss is not required, so the atom holds. -/
  | notRequired
  /-- The atom is replaced by the requirements of the boss location of a dungeon. -/
  | substitute (dungeon : String)
  /-- The atom is kept as a leaf. -/
  | opaqueLeaf
deriving DecidableEq, Repr

/-- What an atom means. -/
inductive AtomMeaning where
  /-- The atom names a macro with this requirement text. -/
  | macroText (requirement : String)
  | conditional (holds : Bool)
  | otherLocation (general detailed : String)
  | predetermined (outcome : Predetermined)
  | boss (meaning : BossMeaning)
  | plainItem
deriving DecidableEq, Repr

/-- The state against which atoms are resolved. -/
structure Resolution where
  data : GameData
  settings : Settings
  predetermined : PredeterminedItems
  /-- The dungeons whose boss is marked as not required. -/
  notRequired : NameSet

namespace Resolution

/-- The name of the location to which an atom refers. The second kind of reference is recognised
in flattened mode only. -/
def locationReference? (flattened : Bool) (atom : String) : Option String :=
  quotedAfter? "Can Access Item Location " atom.toList
    <|> if flattened then quotedAfter? "Has Accessed Other Location " atom.toList else none

/-- What defeating a boss means. -/
def bossMeaning (r : Resolution) (flattened : Bool) (boss : RequiredBoss) : BossMeaning :=
  if r.notRequired.contains boss.dungeon then .notRequired
  else if flattened then .substitute boss.dungeon
  else .opaqueLeaf

/-- What an atom means. -/
def classify (r : Resolution) (flattened : Bool) (atom : String) :
    Except LogicError AtomMeaning :=
  match r.data.macroText? atom with
  | some requirement => pure (.macroText requirement)
  | none =>
    match Conditional.parse? atom with
    | some conditional => pure (.conditional (conditional.holds r.settings))
    | none =>
      match locationReference? flattened atom with
      | some location => do
        let (general, detailed) ← splitLocationName location
        pure (.otherLocation general detailed)
      | none =>
        match r.predetermined.classify (ItemRequirement.parse atom) with
        | some outcome => pure (.predetermined outcome)
        | none =>
          match r.data.bossOfRequirement? atom with
          | some boss => pure (.boss (r.bossMeaning flattened boss))
          | none => pure .plainItem

/-- What replaces an atom in a tree. -/
inductive Expansion where
  /-- A finished tree. -/
  | tree (r : Requirement)
  /-- The tree of a requirement text in the same mode. -/
  | requirement (text : String)
  /-- The tree of a location in the given mode. -/
  | location (general detailed : String) (flattened : Bool)
deriving DecidableEq, Repr

/-- What replaces an atom in a tree. Terminals stand for what is already decided, and a boss that
is substituted brings in the flattened tree of its location. -/
def expansion (r : Resolution) (flattened : Bool) (atom : String) :
    Except LogicError Expansion := do
  match ← r.classify flattened atom with
  | .macroText requirement => pure (.requirement requirement)
  | .otherLocation general detailed => pure (.location general detailed flattened)
  | .boss (.substitute dungeon) => do
    let detailed ← r.data.bossLocation dungeon
    pure (.location dungeon detailed true)
  | .conditional true => pure (.tree .nothing)
  | .conditional false => pure (.tree .impossible)
  | .predetermined .satisfied => pure (.tree .nothing)
  | .predetermined .unsatisfiable => pure (.tree .impossible)
  | .boss .notRequired => pure (.tree .nothing)
  | .boss .opaqueLeaf => pure (.tree (.leaf atom))
  | .plainItem => pure (.tree (.leaf atom))

end Resolution

end SeedLogic
