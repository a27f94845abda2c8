import Mathlib.Data.List.Find
import SeedLogic.Proofs.Text.Trimming
import SeedLogic.Session.DisplayNames
import SeedLogic.Session.Locations

/-!
# Lists of flags

Two readers cut the text that lists the flags of a location. The tables cut it at each comma with a
space behind it and drop empty pieces; the display of settings cuts it at each comma, trims the
pieces and keeps empty ones. On a text with a space behind every comma and nothing but flags between
the commas both see the flags that are listed. A comma alone, or other blanks, change what the
tables see, and an empty piece adds an empty setting to the display.

## Main definitions

* `FlagName.listed` : the flags that a text lists.
* `LocationEntry.WellSeparated` : the flags in the tables are separated as they should be.

## Main results

* `LocationEntry.flags_eq_listed_iff` : when the tables see the flags that are listed.
* `FlagName.settingsText_eq_listed_iff` : when the display shows the settings of the listed flags.
* `flag_readers_agree_iff` : both, and what the session decides by flags.
-/

namespace SeedLogic

namespace Text

variable {sep c : Char} {cs piece : List Char}

/-! ### Pieces -/

/-- Pieces are those of the core library. -/
theorem pieces_eq_splitOn (sep : Char) (cs : List Char) : pieces sep cs = cs.splitOn sep := by
  induction cs with
  | nil => rfl
  | cons c cs ih =>
    rw [pieces, ih, List.splitOn_cons_eq_if_modifyHead]
    cases h : cs.splitOn sep with
    | nil => exact absurd h (List.splitOn_ne_nil sep cs)
    | cons first rest =>
      by_cases hc : c = sep <;> simp [hc]

/-- No piece holds a separator. -/
theorem not_mem_of_mem_pieces (h : piece ∈ pieces sep cs) : sep ∉ piece := by
  induction cs generalizing piece with
  | nil => simp_all [pieces]
  | cons c cs ih =>
    rw [pieces_eq_splitOn, List.splitOn_cons_eq_if_modifyHead, ← pieces_eq_splitOn] at h
    cases hpieces : pieces sep cs with
    | nil => simp_all
    | cons first rest =>
      rw [hpieces] at h ih
      by_cases hc : c = sep
      · rw [if_pos (by simpa using hc)] at h
        rcases List.mem_cons.1 h with rfl | h
        · exact List.not_mem_nil
        · exact ih h
      · rw [if_neg (by simpa using hc), List.modifyHead_cons] at h
        rcases List.mem_cons.1 h with rfl | h
        · exact List.not_mem_cons_of_ne_of_not_mem (Ne.symm hc) (ih List.mem_cons_self)
        · exact ih (List.mem_cons_of_mem _ h)

private theorem commaSpacePieces_ne_nil (cs : List Char) : commaSpacePieces cs ≠ [] := by
  fun_cases commaSpacePieces cs <;> simp

/-- Joined by commas with a space behind, the pieces give the text back. -/
theorem intercalate_commaSpacePieces (cs : List Char) :
    [',', ' '].intercalate (commaSpacePieces cs) = cs := by
  fun_induction commaSpacePieces cs with
  | case1 => rfl
  | case2 cs ih =>
    cases h : commaSpacePieces cs with
    | nil => exact absurd h (commaSpacePieces_ne_nil cs)
    | cons first rest =>
      rw [h] at ih
      rw [List.intercalate_cons_cons, ih]
      rfl
  | case3 c cs _ h ih => exact absurd h (commaSpacePieces_ne_nil cs)
  | case4 c cs _ first rest h ih =>
    rw [h] at ih
    rw [← ih]
    cases rest with
    | nil => rfl
    | cons second rest => simp [List.intercalate_cons_cons]

/-! ### Both ways of cutting -/

/-- Pieces that hold no comma and are trimmed are found at the commas. -/
theorem map_trim_pieces_intercalate {ps : List (List Char)} (hne : ps ≠ [])
    (hcomma : ∀ p ∈ ps, ',' ∉ p) (htrim : ∀ p ∈ ps, trim p = p) :
    (pieces ',' ([',', ' '].intercalate ps)).map trim = ps := by
  induction ps with
  | nil => exact absurd rfl hne
  | cons p ps ih =>
    obtain ⟨hp, hps⟩ := List.forall_mem_cons.1 hcomma
    obtain ⟨hptrim, hpstrim⟩ := List.forall_mem_cons.1 htrim
    cases ps with
    | nil =>
      rw [List.intercalate_singleton, pieces_eq_splitOn, List.splitOn_eq_singleton hp,
        List.map_singleton, hptrim]
    | cons q ps =>
      have htext : [',', ' '].intercalate (p :: q :: ps) =
          p ++ ',' :: ' ' :: [',', ' '].intercalate (q :: ps) := by
        simp [List.intercalate_cons_cons]
      -- The space behind the comma belongs to the next piece and is trimmed there.
      rw [htext, pieces_eq_splitOn, List.splitOn_append_cons_self_of_not_mem hp, List.map_cons,
        hptrim, List.splitOn_cons_eq_if_modifyHead, if_neg (by decide), ← pieces_eq_splitOn]
      have hrest := ih (List.cons_ne_nil q ps) hps hpstrim
      cases hpieces : pieces ',' ([',', ' '].intercalate (q :: ps)) with
      | nil => simp [hpieces] at hrest
      | cons first rest =>
        rw [hpieces, List.map_cons] at hrest
        rw [List.modifyHead_cons, List.map_cons, trim_cons_of_blank (by decide), hrest]

end Text

/-! ### Flags of a location -/

/-- The trimmed pieces between the commas of a text. -/
def FlagName.trimmed (types : String) : List String :=
  (Text.pieces ',' types.toList).map fun piece => String.ofList (Text.trim piece)

/-- The flags that a text lists: its trimmed pieces that are not empty. -/
def FlagName.listed (types : String) : List String :=
  (FlagName.trimmed types).filter (· != "")

namespace LocationEntry

variable {entry : LocationEntry}

/-- No flag of the location holds a comma, and none begins or ends with a blank. -/
def WellSeparated (entry : LocationEntry) : Prop :=
  ∀ flag ∈ entry.flags, ',' ∉ flag.toList ∧ Text.trim flag.toList = flag.toList

instance (entry : LocationEntry) : Decidable entry.WellSeparated :=
  inferInstanceAs (Decidable (∀ flag ∈ entry.flags, _ ∧ _))

/-- A location carries the flags that are listed for it exactly if they are well separated. -/
theorem flags_eq_listed_iff : entry.flags = FlagName.listed entry.types ↔ entry.WellSeparated := by
  constructor
  · intro h flag hflag
    rw [h, FlagName.listed] at hflag
    obtain ⟨piece, hpiece, rfl⟩ := List.mem_map.1 (List.mem_of_mem_filter hflag)
    rw [String.toList_ofList]
    refine ⟨fun hcomma => ?_, Text.trim_trim piece⟩
    exact Text.not_mem_of_mem_pieces hpiece ((Text.trim_sublist piece).subset hcomma)
  · intro h
    have hpieces : ∀ piece ∈ Text.commaSpacePieces entry.types.toList,
        ',' ∉ piece ∧ Text.trim piece = piece := by
      intro piece hpiece
      by_cases hempty : piece = []
      · subst hempty
        exact ⟨List.not_mem_nil, rfl⟩
      · have hflag : String.ofList piece ∈ entry.flags :=
          List.mem_map_of_mem (List.mem_filter.2 ⟨hpiece, by simpa using hempty⟩)
        simpa using h _ hflag
    have hcut := Text.map_trim_pieces_intercalate (Text.commaSpacePieces_ne_nil entry.types.toList)
      (fun piece hpiece => (hpieces piece hpiece).1) (fun piece hpiece => (hpieces piece hpiece).2)
    rw [Text.intercalate_commaSpacePieces] at hcut
    rw [flags, ← hcut, FlagName.listed, FlagName.trimmed, List.filter_map, List.filter_map,
      List.map_map]
    congr 1
    refine List.filter_congr fun piece _ => ?_
    rw [Function.comp_apply, Function.comp_apply, Bool.eq_iff_iff]
    simp

end LocationEntry

/-! ### Settings of flags -/

/-- The names in a list in order of their first occurrence, without repetition. -/
def firstSeen (names : List String) : List String :=
  names.foldl (fun shown name => if shown.contains name then shown else shown ++ [name]) []

/-- A name at the end is kept if it has not occurred. -/
theorem firstSeen_append_singleton (names : List String) (name : String) :
    firstSeen (names ++ [name]) =
      if (firstSeen names).contains name then firstSeen names else firstSeen names ++ [name] := by
  rw [firstSeen, List.foldl_append]
  rfl

/-- Every name is kept. -/
theorem mem_firstSeen {names : List String} {name : String} :
    name ∈ firstSeen names ↔ name ∈ names := by
  induction names using List.reverseRecOn with
  | nil => rfl
  | append_singleton names last ih =>
    rw [firstSeen_append_singleton, List.mem_append, List.mem_singleton, ← ih]
    split
    next h =>
      have hlast : last ∈ firstSeen names := List.contains_iff_mem.1 h
      constructor
      · exact Or.inl
      · rintro (hname | rfl)
        · exact hname
        · exact hlast
    next => rw [List.mem_append, List.mem_singleton]

/-- No name is kept twice. -/
theorem nodup_firstSeen (names : List String) : (firstSeen names).Nodup := by
  induction names using List.reverseRecOn with
  | nil => exact List.nodup_nil
  | append_singleton names last ih =>
    rw [firstSeen_append_singleton]
    split
    next => exact ih
    next h =>
      rw [List.contains_iff_mem] at h
      refine List.nodup_append.2 ⟨ih, List.pairwise_singleton _ last, ?_⟩
      intro name hname other hother
      rw [List.mem_singleton] at hother
      rintro rfl
      exact h (hother ▸ hname)

/-- Names that are dropped first do not affect the others. -/
theorem firstSeen_filter (keep : String → Bool) (names : List String) :
    firstSeen (names.filter keep) = (firstSeen names).filter keep := by
  induction names using List.reverseRecOn with
  | nil => rfl
  | append_singleton names last ih =>
    rw [List.filter_append, firstSeen_append_singleton]
    cases hkeep : keep last with
    | false =>
      rw [List.filter_singleton, hkeep, Bool.cond_false, List.append_nil, ih]
      split <;> simp [hkeep]
    | true =>
      have hcontains : ((firstSeen names).filter keep).contains last =
          (firstSeen names).contains last := by
        simp [hkeep]
      rw [List.filter_singleton, hkeep, Bool.cond_true, firstSeen_append_singleton, ih, hcontains]
      split <;> simp [hkeep]

/-- With a separator behind, joined names are the names with a separator behind each. -/
private theorem toList_intercalate_append {names : List String} (hne : names ≠ []) :
    (", ".intercalate names).toList ++ [',', ' '] =
      names.flatMap fun name => name.toList ++ [',', ' '] := by
  rw [String.toList_intercalate]
  induction names with
  | nil => exact absurd rfl hne
  | cons name names ih =>
    cases names with
    | nil => simp
    | cons second rest =>
      have hrest := ih (List.cons_ne_nil second rest)
      rw [List.map_cons, List.map_cons, List.intercalate_cons_cons, List.flatMap_cons, ← hrest]
      simp

/-- An empty name among different names shows when they are joined, unless it is the only one. -/
theorem intercalate_filter_eq_iff {names : List String} (hnodup : names.Nodup) :
    ", ".intercalate names = ", ".intercalate (names.filter (· != "")) ↔
      names.filter (· != "") = [] ∨ "" ∉ names := by
  by_cases hmem : "" ∈ names
  · have hperm : names.Perm ("" :: names.filter (· != "")) := by
      have herase := List.perm_cons_erase hmem
      rwa [hnodup.erase_eq_filter] at herase
    rw [or_iff_left (not_not.2 hmem)]
    constructor
    · intro h
      by_contra hne
      have hlength := (hperm.flatMap_right fun name => name.toList ++ [',', ' ']).length_eq
      rw [List.flatMap_cons, ← toList_intercalate_append hne,
        ← toList_intercalate_append (List.ne_nil_of_mem hmem), h] at hlength
      simp at hlength
    · intro hnil
      rw [hnil] at hperm
      rw [hnil, hperm.eq_singleton]
      rfl
  · rw [List.filter_eq_self.2 fun name hname => by simpa using ne_of_mem_of_not_mem hname hmem]
    simp [hmem]

namespace FlagName

/-- The settings behind flags, in order and without repetition. A flag without a setting stands for
itself. -/
def settings (flags : List String) : List String :=
  firstSeen (flags.map fun flag => (setting? flag).getD flag)

/-- The display shows the settings of all trimmed pieces. -/
theorem settingsText_eq (types : String) :
    settingsText types = ", ".intercalate (settings (trimmed types)) := rfl

/-- No setting is empty, so only an empty flag stands for an empty setting. -/
theorem setting_eq_empty_iff {flag : String} : (setting? flag).getD flag = "" ↔ flag = "" := by
  unfold setting?
  split <;> simp

/-- Dropping empty flags drops the empty setting. -/
theorem settings_filter (flags : List String) :
    settings (flags.filter (· != "")) = (settings flags).filter (· != "") := by
  rw [settings, settings, ← firstSeen_filter, List.filter_map]
  congr 2
  refine List.filter_congr fun flag _ => ?_
  rw [Function.comp_apply, Bool.eq_iff_iff, bne_iff_ne, bne_iff_ne, ne_eq, ne_eq,
    setting_eq_empty_iff]

/-- The display shows the settings of the flags that are listed exactly if no piece is blank or all
of them are. -/
theorem settingsText_eq_listed_iff {types : String} :
    settingsText types = ", ".intercalate (settings (listed types)) ↔
      listed types = [] ∨ "" ∉ trimmed types := by
  have hmem : "" ∈ settings (trimmed types) ↔ "" ∈ trimmed types := by
    simp [settings, mem_firstSeen, setting_eq_empty_iff]
  have hnil : settings (listed types) = [] ↔ listed types = [] := by
    simp [List.eq_nil_iff_forall_not_mem, settings, mem_firstSeen]
  have hnodup : (settings (trimmed types)).Nodup := nodup_firstSeen _
  have hdrop : settings (listed types) = (settings (trimmed types)).filter (· != "") :=
    settings_filter (trimmed types)
  rw [settingsText_eq, hdrop, intercalate_filter_eq_iff hnodup, ← hdrop, hnil, hmem]

end FlagName

/-! ### Decisions by flags -/

/-- The flags of all locations are well separated. -/
def GameData.WellSeparated (data : GameData) : Prop :=
  ∀ zone ∈ data.locations.entries, ∀ location ∈ zone.2.entries, location.2.WellSeparated

instance (data : GameData) : Decidable data.WellSeparated :=
  inferInstanceAs (Decidable (∀ zone ∈ data.locations.entries, ∀ location ∈ zone.2.entries, _))

theorem GameData.WellSeparated.location {data : GameData} (hdata : data.WellSeparated)
    {general detailed : String} {entry : LocationEntry}
    (hentry : data.location? general detailed = some entry) : entry.WellSeparated := by
  rw [location?, locationsIn] at hentry
  cases hzone : data.locations.get? general with
  | none =>
    rw [hzone] at hentry
    cases hentry
  | some zone =>
    rw [hzone, Option.getD_some] at hentry
    have hmem : (detailed, entry) ∈ zone.entries := Dict.mem_entries_of_get? hentry
    exact hdata (general, zone) (Dict.mem_entries_of_get? hzone) (detailed, entry) hmem

/-- A location whose flags are well separated carries the flags that are listed. -/
theorem LocationEntry.WellSeparated.hasFlag_eq {entry : LocationEntry} (h : entry.WellSeparated)
    (flag : String) : entry.hasFlag flag = (FlagName.listed entry.types).contains flag := by
  rw [hasFlag, flags_eq_listed_iff.2 h]

/-- The boss location of a dungeon without an override is the first one for which the flag of
bosses is listed. -/
theorem GameData.WellSeparated.bossLocation_eq {data : GameData} (hdata : data.WellSeparated)
    {dungeon : String} (hoverride : data.bossLocationOverrides.get? dungeon = none) :
    data.bossLocation dungeon =
      match (data.locationsIn dungeon).entries.find? fun entry =>
          (FlagName.listed entry.2.types).contains FlagName.boss with
      | some (detailed, _) => .ok detailed
      | none => .error (.unknownBossLocation dungeon) := by
  have hfind : (data.locationsIn dungeon).entries.find? (fun entry =>
        entry.2.hasFlag FlagName.boss) =
      (data.locationsIn dungeon).entries.find? fun entry =>
        (FlagName.listed entry.2.types).contains FlagName.boss := by
    refine List.find?_congr fun entry hentry => ?_
    exact (hdata.location (Dict.mem_entries_iff_get?.1 hentry)).hasFlag_eq FlagName.boss
  rw [bossLocation, hoverride, hfind]
  rfl

namespace Session

variable {s : Session} {general detailed : String} {entry : LocationEntry}

/-- A location may hold progress items when all the flags that are listed for it are active. -/
theorem isProgressLocation_eq_listed (hentry : s.data.location? general detailed = some entry)
    (hseparated : entry.WellSeparated) :
    s.isProgressLocation general detailed =
      .ok ((FlagName.listed entry.types).all s.settings.flags.contains) := by
  rw [isProgressLocation, GameData.locationEntry, hentry,
    ← LocationEntry.flags_eq_listed_iff.2 hseparated]
  rfl

/-- Whether a location may hold a key of its dungeon depends on the flags that are listed for it. -/
theorem isPotentialKeyLocation_eq_listed (hentry : s.data.location? general detailed = some entry)
    (hseparated : entry.WellSeparated) :
    let listed := FlagName.listed entry.types
    s.isPotentialKeyLocation general detailed = .ok
      (s.data.isMainDungeon general &&
        (!s.settings.flags.contains FlagName.dungeon || listed.all s.settings.flags.contains) &&
        !(s.settings.isEnabled OptionName.randomizeMinibossEntrances &&
          listed.contains FlagName.randomizableMinibossRoom) &&
        !listed.contains FlagName.boss) := by
  intro listed
  rw [isPotentialKeyLocation, isProgressLocation_eq_listed hentry hseparated,
    GameData.locationEntry, hentry]
  cases s.data.isMainDungeon general with
  | false => rfl
  | true =>
    show (if (s.settings.flags.contains FlagName.dungeon &&
          !listed.all s.settings.flags.contains) = true then pure false
        else if (s.settings.isEnabled OptionName.randomizeMinibossEntrances &&
          entry.hasFlag FlagName.randomizableMinibossRoom) = true then pure false
        else pure !entry.hasFlag FlagName.boss) = _
    rw [hseparated.hasFlag_eq, hseparated.hasFlag_eq]
    cases s.settings.flags.contains FlagName.dungeon <;>
      cases listed.all s.settings.flags.contains <;>
      cases s.settings.isEnabled OptionName.randomizeMinibossEntrances <;>
      cases listed.contains FlagName.randomizableMinibossRoom <;> rfl

end Session

/-- The tables see the flags that are listed for a location exactly if these are well separated, and
the display shows the settings of the listed flags exactly if no piece is blank or all of them are.
In tables with well separated flags, whatever is decided by flags is decided by the listed ones. -/
theorem flag_readers_agree_iff (s : Session) :
    (∀ entry : LocationEntry,
      entry.flags = FlagName.listed entry.types ↔ entry.WellSeparated) ∧
    (∀ types : String,
      FlagName.settingsText types =
          ", ".intercalate (FlagName.settings (FlagName.listed types)) ↔
        FlagName.listed types = [] ∨ "" ∉ FlagName.trimmed types) ∧
    (s.data.WellSeparated →
      (∀ general detailed entry, s.data.location? general detailed = some entry →
        let listed := FlagName.listed entry.types
        (∀ flag, entry.hasFlag flag = listed.contains flag) ∧
        s.isProgressLocation general detailed = .ok (listed.all s.settings.flags.contains) ∧
        s.isPotentialKeyLocation general detailed = .ok
          (s.data.isMainDungeon general &&
            (!s.settings.flags.contains FlagName.dungeon ||
              listed.all s.settings.flags.contains) &&
            !(s.settings.isEnabled OptionName.randomizeMinibossEntrances &&
              listed.contains FlagName.randomizableMinibossRoom) &&
            !listed.contains FlagName.boss)) ∧
      ∀ dungeon, s.data.bossLocationOverrides.get? dungeon = none →
        s.data.bossLocation dungeon =
          match (s.data.locationsIn dungeon).entries.find? fun entry =>
              (FlagName.listed entry.2.types).contains FlagName.boss with
          | some (detailed, _) => .ok detailed
          | none => .error (.unknownBossLocation dungeon)) := by
  refine ⟨fun entry => LocationEntry.flags_eq_listed_iff,
    fun types => FlagName.settingsText_eq_listed_iff, fun hdata => ⟨?_, ?_⟩⟩
  · intro general detailed entry hentry listed
    have hseparated := hdata.location hentry
    exact ⟨hseparated.hasFlag_eq, Session.isProgressLocation_eq_listed hentry hseparated,
      Session.isPotentialKeyLocation_eq_listed hentry hseparated⟩
  · intro dungeon hoverride
    exact hdata.bossLocation_eq hoverride

/-- With the space both readers see the two flags of a throne, and it is the boss location. -/
theorem flag_readers_agree_iff_throne :
    let throne : LocationEntry := { need := "Nothing", types := "Dungeon, Boss" }
    let data : GameData := { locations := .ofList [("Crypt", .ofList [("Throne", throne)])] }
    let s : Session :=
      { data, settings := { flags := .ofNames ["Boss", "Dungeon"] }, predetermined := {} }
    data.WellSeparated ∧ throne.flags = FlagName.listed throne.types ∧
      s.isProgressLocation "Crypt" "Throne" = .ok true ∧
      data.bossLocation "Crypt" = .ok "Throne" := by
  intro throne data s
  have hthrone : throne.WellSeparated := by decide +kernel
  have hdata : data.WellSeparated := by decide +kernel
  obtain ⟨hflags, -, hdecisions⟩ := flag_readers_agree_iff s
  obtain ⟨hlocation, hboss⟩ := hdecisions hdata
  obtain ⟨-, hprogress, -⟩ := hlocation "Crypt" "Throne" throne (by decide +kernel)
  refine ⟨hdata, (hflags throne).2 hthrone, hprogress.trans ?_, (hboss "Crypt" ?_).trans ?_⟩
  all_goals decide +kernel

/-- Without the space the tables see a single flag, so the crypt has no boss location, although the
flag of bosses is listed and its setting is shown, and the throne is no progress location, although
both listed flags are active. A comma at the end shows an empty setting. -/
theorem flag_readers_disagree_throne :
    let throne : LocationEntry := { need := "Nothing", types := "Dungeon,Boss" }
    let data : GameData := { locations := .ofList [("Crypt", .ofList [("Throne", throne)])] }
    let s : Session :=
      { data, settings := { flags := .ofNames ["Boss", "Dungeon"] }, predetermined := {} }
    throne.flags = ["Dungeon,Boss"] ∧ FlagName.listed throne.types = ["Dungeon", "Boss"] ∧
      FlagName.settingsText throne.types = "Dungeons, Boss" ∧
      data.bossLocation "Crypt" = .error (.unknownBossLocation "Crypt") ∧
      s.isProgressLocation "Crypt" "Throne" = .ok false ∧
      FlagName.listed "Dungeon," = ["Dungeon"] ∧
      FlagName.settingsText "Dungeon," = "Dungeons, " := by
  decide +kernel

end SeedLogic
