import SeedLogic.Proofs.Data.Reordering
import SeedLogic.Settings.Format
import SeedLogic.Tables.Format

/-!
# What is written is read back

Settings and tables are written as data and read back from data. The reader of each record gives
back the record from all data that its writer may produce, in whatever order a table of them lists
its entries. The kind of an option value is not written down; the five shapes are told apart by
trying them one after the other, and no datum has two of them.

## Main definitions

* `OptionValue.readers` : the readers of the five kinds of option values.

## Main results

* `OptionValue.filterMap_readers` : at most one of the five readers accepts a datum.
* `Settings.yields`, `GameData.yields` : the readers of the two files undo their writers.
* `formats_round_trip` : settings, tables and option values are read back from what is written.
-/

namespace SeedLogic

open Datum

/-! ### Option values -/

namespace OptionValue

/-- The readers of the five kinds of option values, in the order in which they are tried. -/
def readers : List (Datum → Option OptionValue) :=
  [fun d => d.boolean?.map .toggle, fun d => d.integer64?.map .integer,
    fun d => d.text?.map .choice, fun d => d.names?.map .selection,
    fun d => (d.dict? boolean?).map .switches]

/-- At most one of the five readers accepts a datum. -/
theorem filterMap_readers (d : Datum) : readers.filterMap (· d) = (ofDatum? d).toList := by
  cases d with
  | null => rfl
  | boolean value => rfl
  | integer value =>
    cases h : integer64? (.integer value) <;>
      simp [readers, ofDatum?, h, boolean?, text?, names?, list?, dict?]
  | otherScalar => rfl
  | text value => rfl
  | list items =>
    cases h : names? (.list items) <;>
      simp [readers, ofDatum?, h, boolean?, integer64?, text?, dict?]
  | table entries plainKeys =>
    cases h : dict? boolean? (.table entries plainKeys) <;>
      simp [readers, ofDatum?, h, boolean?, integer64?, text?, names?, list?]

/-- The kind of an option value is that of the first reader that accepts its datum. -/
theorem ofDatum?_eq_findSome? (d : Datum) : ofDatum? d = readers.findSome? (· d) := by
  rw [← List.head?_filterMap, filterMap_readers]
  cases ofDatum? d <;> rfl

theorem yields : (value : OptionValue) → Yields ofDatum? value.toDatum value
  | .toggle _ => by
    rintro _ ⟨⟩
    rfl
  | .integer value => by
    intro other h
    have hread := yields_integer64 value other h
    cases h
    rw [ofDatum?, hread, Option.map_some]
  | .choice _ => by
    rintro _ ⟨⟩
    rfl
  | .selection names => by
    intro other h
    have hread := yields_names names other h
    cases h
    rw [ofDatum?, hread, Option.map_some]
  | .switches values => by
    intro other h
    have hread := yields_dict yields_boolean values other h
    cases h
    rw [ofDatum?, hread, Option.map_some]

end OptionValue

/-! ### Settings -/

theorem yields_optionalText (text : String) : Yields optionalText? (.text text) (some text) := by
  rintro _ ⟨⟩
  rfl

/-- The settings are read back from what is written, an unset version included. -/
theorem Settings.yields (s : Settings) : Yields Settings.ofDatum? s.toDatum s := by
  intro other h
  obtain ⟨record, hrecord, hfields⟩ := h.exists_record fieldNames
    (by cases s.version <;> simp [fieldNames]) (by cases s.version <;> simp)
  have hversion : fieldD? record "version" none optionalText? = some s.version := by
    cases hversion : s.version with
    | none => exact hfields.fieldD?_of_none "version" (by rw [hversion]; rfl)
    | some version =>
      exact hfields.fieldD? "version" (by rw [hversion]; rfl) (yields_optionalText version)
  rw [ofDatum?, hrecord, Option.bind_eq_bind, Option.bind_some]
  refine hfields.fieldD?_bind "flags" rfl (yields_names _) ?_
  refine hfields.fieldD?_bind "certain_flags" rfl (yields_names _) ?_
  refine hfields.fieldD?_bind "options" rfl (yields_dict OptionValue.yields _) ?_
  refine hfields.fieldD?_bind "starting_gear" rfl (yields_dict yields_count _) ?_
  rw [hversion]
  rfl

/-! ### Tables -/

/-- The name of a category names that category only. -/
theorem EntranceCategory.ofName?_name (category : EntranceCategory) :
    ofName? category.name = some category := by
  cases category <;> rfl

theorem EntranceCategory.yields (category : EntranceCategory) :
    Yields EntranceCategory.ofDatum? (.text category.name) category := by
  rintro _ ⟨⟩
  exact category.ofName?_name

theorem LocationEntry.yields (entry : LocationEntry) :
    Yields LocationEntry.ofDatum? entry.toDatum entry := by
  intro other h
  obtain ⟨record, hrecord, hfields⟩ := h.exists_record ["need", "types"] (by simp) (by simp)
  rw [ofDatum?, hrecord, Option.bind_eq_bind, Option.bind_some]
  refine hfields.field?_bind "need" rfl (yields_text _) ?_
  refine hfields.fieldD?_bind "types" rfl (yields_text _) ?_
  rfl

theorem EntranceEntry.yields (entry : EntranceEntry) :
    Yields EntranceEntry.ofDatum? entry.toDatum entry := by
  intro other h
  obtain ⟨record, hrecord, hfields⟩ := h.exists_record fieldNames (by simp [fieldNames]) (by simp)
  rw [ofDatum?, hrecord, Option.bind_eq_bind, Option.bind_some]
  refine hfields.field?_bind "internal_name" rfl (yields_text _) ?_
  refine hfields.field?_bind "entrance_zone_name" rfl (yields_text _) ?_
  refine hfields.field?_bind "exit_zone_name" rfl (yields_text _) ?_
  refine hfields.field?_bind "category" rfl (EntranceCategory.yields _) ?_
  refine hfields.field?_bind "entrance_name" rfl (yields_text _) ?_
  refine hfields.field?_bind "exit_name" rfl (yields_text _) ?_
  refine hfields.field?_bind "entry_name" rfl (yields_text _) ?_
  refine hfields.field?_bind "entrance_macro_name" rfl (yields_text _) ?_
  rfl

theorem DungeonEntry.yields (entry : DungeonEntry) :
    Yields DungeonEntry.ofDatum? entry.toDatum entry := by
  intro other h
  obtain ⟨record, hrecord, hfields⟩ := h.exists_record ["name", "short_name"] (by simp) (by simp)
  rw [ofDatum?, hrecord, Option.bind_eq_bind, Option.bind_some]
  refine hfields.field?_bind "name" rfl (yields_text _) ?_
  refine hfields.field?_bind "short_name" rfl (yields_text _) ?_
  rfl

theorem RequiredBoss.yields (boss : RequiredBoss) :
    Yields RequiredBoss.ofDatum? boss.toDatum boss := by
  intro other h
  obtain ⟨record, hrecord, hfields⟩ :=
    h.exists_record ["dungeon_name", "requirement"] (by simp) (by simp)
  rw [ofDatum?, hrecord, Option.bind_eq_bind, Option.bind_some]
  refine hfields.field?_bind "dungeon_name" rfl (yields_text _) ?_
  refine hfields.field?_bind "requirement" rfl (yields_text _) ?_
  rfl

theorem BannedLocation.yields (location : BannedLocation) :
    Yields BannedLocation.ofDatum? location.toDatum location := by
  intro other h
  obtain ⟨record, hrecord, hfields⟩ :=
    h.exists_record ["general_location", "detailed_location"] (by simp) (by simp)
  rw [ofDatum?, hrecord, Option.bind_eq_bind, Option.bind_some]
  refine hfields.field?_bind "general_location" rfl (yields_text _) ?_
  refine hfields.field?_bind "detailed_location" rfl (yields_text _) ?_
  rfl

/-- The tables are read back from what is written. -/
theorem GameData.yields (data : GameData) : Yields GameData.ofDatum? data.toDatum data := by
  intro other h
  obtain ⟨record, hrecord, hfields⟩ := h.exists_record fieldNames (by simp [fieldNames]) (by simp)
  rw [ofDatum?, hrecord, Option.bind_eq_bind, Option.bind_some]
  refine hfields.fieldD?_bind "macros" rfl (yields_dict yields_text _) ?_
  refine hfields.fieldD?_bind "locations" rfl (yields_dict (yields_dict LocationEntry.yields) _) ?_
  refine hfields.fieldD?_bind "entrances" rfl (yields_list EntranceEntry.yields _) ?_
  refine hfields.fieldD?_bind "nested_entrances" rfl (yields_dict yields_texts _) ?_
  refine hfields.fieldD?_bind "required_bosses" rfl (yields_list RequiredBoss.yields _) ?_
  refine hfields.fieldD?_bind "dungeons" rfl (yields_list DungeonEntry.yields _) ?_
  refine hfields.fieldD?_bind "non_main_dungeons" rfl (yields_names _) ?_
  refine hfields.fieldD?_bind "boss_location_overrides" rfl (yields_dict yields_text _) ?_
  refine hfields.fieldD?_bind "items" rfl (yields_dict yields_count _) ?_
  refine hfields.fieldD?_bind "keys" rfl (yields_dict yields_count _) ?_
  refine hfields.fieldD?_bind "charts" rfl (yields_texts _) ?_
  refine hfields.fieldD?_bind "islands" rfl (yields_texts _) ?_
  refine hfields.fieldD?_bind "pretty_item_names" rfl
    (yields_dict (yields_countDict yields_text) _) ?_
  refine hfields.fieldD?_bind "additional_banned_locations" rfl
    (yields_dict (yields_list BannedLocation.yields) _) ?_
  rfl

/-! ### All formats -/

/-- Settings, tables and option values are read back from what is written, in whatever order a table
of it lists its entries. An option value is read by the reader of its own kind and by no other one,
so that trying the five readers in turn finds it. -/
theorem formats_round_trip :
    (∀ s : Settings, Settings.ofDatum? s.toDatum = some s ∧
      Yields Settings.ofDatum? s.toDatum s) ∧
    (∀ data : GameData, GameData.ofDatum? data.toDatum = some data ∧
      Yields GameData.ofDatum? data.toDatum data) ∧
    (∀ (value : OptionValue) (d : Datum), Reordered value.toDatum d →
      OptionValue.ofDatum? d = some value ∧ OptionValue.readers.filterMap (· d) = [value]) ∧
    ∀ d : Datum, OptionValue.ofDatum? d = OptionValue.readers.findSome? (· d) := by
  refine ⟨fun s => ⟨s.yields _ (.refl _), s.yields⟩,
    fun data => ⟨data.yields _ (.refl _), data.yields⟩, fun value d hd => ?_,
    OptionValue.ofDatum?_eq_findSome?⟩
  have hread := value.yields d hd
  exact ⟨hread, by rw [OptionValue.filterMap_readers, hread]; rfl⟩

/-- Switches that are listed in another order, options of all five kinds without a version, and
display names for two and for ten copies, whose keys stand in another order as texts. -/
theorem formats_round_trip_five_kinds :
    let switches : OptionValue := .switches (.ofList [("Boss", false), ("Cave", true)])
    let options : Dict String OptionValue :=
      .ofList [("charts", .toggle true), ("shards", .integer (-3)), ("mode", .choice ""),
        ("pools", .selection {}), ("locks", switches)]
    let names : Dict UInt32 String := .ofList [(2, "Hero's Bow"), (10, "Light Bow")]
    OptionValue.ofDatum? (.table [("Cave", .boolean true), ("Boss", .boolean false)]) =
        some switches ∧
      Settings.ofDatum? { options : Settings }.toDatum = some { options } ∧
      GameData.ofDatum? { prettyItemNames := .ofList [("Bow", names)] : GameData }.toDatum =
        some { prettyItemNames := .ofList [("Bow", names)] } := by
  refine ⟨(formats_round_trip.2.2.1 _ _ ?_).1, (formats_round_trip.1 _).1,
    (formats_round_trip.2.1 _).1⟩
  exact .table rfl (.cons (.boolean false) (.cons (.boolean true) .nil)) (.swap _ _ _)

end SeedLogic
