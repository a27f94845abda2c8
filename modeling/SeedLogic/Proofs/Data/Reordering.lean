import Mathlib.Data.List.Perm.Basic
import SeedLogic.Data.Decode
import SeedLogic.Proofs.Text.Numerals

/-!
# Decoders and the order of table entries

The entries of a table have no order of their own: a dictionary lists its keys in increasing order,
a table may list them as texts, in the order of the fields of a record, or in any other one. What an
encoder writes is therefore read back from all data that differ from it in the order of table
entries only. Each encoder has one lemma that says so, and that of a composed datum follows from
those of its parts.

## Main definitions

* `Datum.Reordered` : data that differ in the order of table entries only.
* `Datum.Yields` : decoders that read a value from a datum whatever the order is.

## Main results

* `Datum.yields_list`, `Datum.yields_dict`, `Datum.yields_countDict` : lists and dictionaries are
  read back from those of their elements.
* `Datum.Reordered.exists_record`, `Datum.Record.field?`, `Datum.Record.fieldD?` : the fields of a
  record are found in whatever order they stand.
-/

namespace SeedLogic.Datum

/-- The data differ in the order of the entries of their tables only. -/
inductive Reordered : Datum → Datum → Prop
  | null : Reordered .null .null
  | boolean (value : Bool) : Reordered (.boolean value) (.boolean value)
  | integer (value : Int) : Reordered (.integer value) (.integer value)
  | otherScalar : Reordered .otherScalar .otherScalar
  | text (value : String) : Reordered (.text value) (.text value)
  | list {items others : List Datum} (h : List.Forall₂ Reordered items others) :
      Reordered (.list items) (.list others)
  | table {entries inOrder others : List (String × Datum)} {plainKeys : Bool}
      (hkeys : entries.map Prod.fst = inOrder.map Prod.fst)
      (hvalues : List.Forall₂ Reordered (entries.map Prod.snd) (inOrder.map Prod.snd))
      (hperm : inOrder.Perm others) :
      Reordered (.table entries plainKeys) (.table others plainKeys)

/-- The decoder reads the value from the datum, in whatever order its tables list their entries. -/
def Yields {α : Type} (decode : Datum → Option α) (d : Datum) (value : α) : Prop :=
  ∀ other, Reordered d other → decode other = some value

/-! ### Data without reordering -/

mutual

/-- The order may be left as it is. -/
theorem Reordered.refl : (d : Datum) → Reordered d d
  | .null => .null
  | .boolean value => .boolean value
  | .integer value => .integer value
  | .otherScalar => .otherScalar
  | .text value => .text value
  | .list items => .list (Reordered.reflItems items)
  | .table entries _ => .table rfl (Reordered.reflEntries entries) (.refl entries)

private theorem Reordered.reflItems : (items : List Datum) → List.Forall₂ Reordered items items
  | [] => .nil
  | item :: rest => .cons (Reordered.refl item) (Reordered.reflItems rest)

private theorem Reordered.reflEntries : (entries : List (String × Datum)) →
    List.Forall₂ Reordered (entries.map Prod.snd) (entries.map Prod.snd)
  | [] => .nil
  | (_, d) :: rest => .cons (Reordered.refl d) (Reordered.reflEntries rest)

end

/-- Up to the order of the entries, a table keeps its keys and reorders their data. -/
theorem Reordered.exists_entries {entries : List (String × Datum)} {plainKeys : Bool}
    {other : Datum} (h : Reordered (.table entries plainKeys) other) :
    ∃ inOrder others, other = .table others plainKeys ∧ inOrder.Perm others ∧
      List.Forall₂ (fun entry found => entry.1 = found.1 ∧ Reordered entry.2 found.2)
        entries inOrder := by
  cases h with
  | @table _ inOrder others _ hkeys hvalues hperm =>
    refine ⟨inOrder, others, rfl, hperm, ?_⟩
    clear hperm
    induction entries generalizing inOrder with
    | nil =>
      obtain rfl := List.map_eq_nil_iff.1 hkeys.symm
      exact .nil
    | cons entry entries ih =>
      obtain ⟨found, rest, rfl, hkey, hrestkeys⟩ := List.map_eq_cons_iff.1 hkeys.symm
      obtain ⟨hvalue, hrest⟩ := List.forall₂_cons.1 hvalues
      exact .cons ⟨hkey.symm, hvalue⟩ (ih hrestkeys.symm hrest)

variable {α β κ : Type} {decode : Datum → Option α} {encode : α → Datum}

/-! ### Scalars -/

theorem yields_text (value : String) : Yields text? (.text value) value := by
  rintro _ ⟨⟩
  rfl

theorem yields_boolean (value : Bool) : Yields boolean? (.boolean value) value := by
  rintro _ ⟨⟩
  rfl

/-- A count is a number of 32 bits. -/
theorem yields_count (count : UInt32) : Yields count? (ofCount count) count := by
  rintro _ ⟨⟩
  have hrange : 0 ≤ (count.toNat : Int) ∧ (count.toNat : Int).toNat < UInt32.size :=
    ⟨Int.natCast_nonneg _, by simpa using count.toNat_lt_size⟩
  rw [count?, if_pos hrange]
  simp

/-- An integer of 64 bits lies within its own bounds. -/
theorem yields_integer64 (value : Int64) : Yields integer64? (.integer value.toInt) value := by
  rintro _ ⟨⟩
  rw [integer64?, if_pos ⟨value.minValue_le_toInt, value.toInt_le⟩]
  simp

/-! ### Lists -/

private theorem mapM_eq_some_of_forall₂ {β γ : Type} {read : β → Option γ} {xs : List β}
    {ys : List γ} (h : List.Forall₂ (fun x y => read x = some y) xs ys) :
    xs.mapM read = some ys := by
  induction h with
  | nil => rfl
  | cons hread _ ih => simp [List.mapM_cons, hread, ih]

/-- A list is read back item by item. -/
theorem yields_list (h : ∀ value, Yields decode (encode value) value) (values : List α) :
    Yields (list? decode) (.list (values.map encode)) values := by
  intro _ hother
  cases hother with
  | list hitems =>
    have hread := (List.forall₂_map_left_iff.1 hitems).imp fun value _ hitem => h value _ hitem
    exact mapM_eq_some_of_forall₂ hread.flip

theorem yields_texts (texts : List String) : Yields (list? text?) (ofTexts texts) texts :=
  yields_list yields_text texts

/-- A set of names is read back from the list of its names. -/
theorem yields_names (names : NameSet) : Yields names? (ofNames names) names := by
  intro other h
  rw [names?, yields_texts names.keys other h, Option.map_some, NameSet.ofNames_keys]

/-! ### Dictionaries -/

/-- Entries that are read back one by one are read back in whatever order they stand. -/
private theorem exists_perm_of_entries (key : κ → String)
    (read : String × Datum → Option (κ × α)) {entries : List (κ × α)} {plainKeys : Bool}
    {other : Datum}
    (h : ∀ entry other, Reordered (encode entry.2) other →
      read (key entry.1, other) = some entry)
    (hother : Reordered (.table (entries.map fun entry => (key entry.1, encode entry.2)) plainKeys)
      other) :
    ∃ others found, other = .table others plainKeys ∧ others.mapM read = some found ∧
      found.Perm entries := by
  obtain ⟨inOrder, others, rfl, hperm, hentries⟩ := hother.exists_entries
  have hread : List.Forall₂ (fun found entry => read found = some entry) inOrder entries := by
    refine ((List.forall₂_map_left_iff.1 hentries).imp fun entry found hfound => ?_).flip
    obtain ⟨name, d⟩ := found
    obtain ⟨rfl, hd⟩ := hfound
    exact h entry d hd
  obtain ⟨found, hfound, hfoundPerm⟩ := List.perm_comp_forall₂ hperm.symm hread
  exact ⟨others, found, rfl, mapM_eq_some_of_forall₂ hfound, hfoundPerm⟩

/-- A dictionary is read back from the table of its entries. -/
theorem yields_dict (h : ∀ value, Yields decode (encode value) value) (d : Dict String α) :
    Yields (dict? decode) (ofDict encode d) d := by
  intro other hother
  obtain ⟨others, found, rfl, hread, hperm⟩ := exists_perm_of_entries id
    (fun entry => (decode entry.2).map (Prod.mk entry.1))
    (fun entry other hentry => by rw [h entry.2 other hentry]; rfl) hother
  rw [dict?, hread, Option.map_some, Dict.ofList_eq_of_perm hperm]

/-- A count is read back from its digits. -/
theorem countKey?_decimal (count : UInt32) : countKey? (Text.decimal count.toNat) = some count := by
  rw [countKey?, Text.numeral32?_decimal, Option.filter_some]
  simp

/-- A dictionary whose keys are counts is read back from the table of its entries. -/
theorem yields_countDict (h : ∀ value, Yields decode (encode value) value) (d : Dict UInt32 α) :
    Yields (countDict? decode) (ofCountDict encode d) d := by
  intro other hother
  obtain ⟨others, found, rfl, hread, hperm⟩ := exists_perm_of_entries
    (fun count : UInt32 => Text.decimal count.toNat)
    (fun entry => do
      let key ← countKey? entry.1
      let value ← decode entry.2
      some (key, value))
    (fun entry other hentry => by
      simp only [countKey?_decimal, h entry.2 other hentry, Option.bind_eq_bind,
        Option.bind_some]) hother
  refine (congrArg (Option.map Dict.ofList) hread).trans ?_
  rw [Option.map_some, Dict.ofList_eq_of_perm hperm]

/-! ### Records -/

/-- Each field of the record is a reordering of the field with the same name, and the record has no
other field. -/
def Record (fields record : List (String × Datum)) : Prop :=
  ∀ name, Option.Rel Reordered (fields.lookup name) (record.lookup name)

/-- In a table without repeated keys, a lookup finds the entry of its key. -/
private theorem lookup_eq_some_iff_mem {entries : List (String × Datum)}
    (hnodup : (entries.map Prod.fst).Nodup) {name : String} {d : Datum} :
    entries.lookup name = some d ↔ (name, d) ∈ entries := by
  refine ⟨fun h => ?_, fun h => ?_⟩
  · obtain ⟨front, back, rfl, -⟩ := List.lookup_eq_some_iff.1 h
    simp
  · obtain ⟨front, back, rfl⟩ := List.append_of_mem h
    refine List.lookup_eq_some_iff.2 ⟨front, back, rfl, fun entry hentry => ?_⟩
    rw [List.map_append, List.map_cons] at hnodup
    have hne := (List.nodup_append.1 hnodup).2.2 entry.1 (List.mem_map_of_mem hentry) name
      List.mem_cons_self
    simpa using Ne.symm hne

private theorem lookup_eq_of_perm {entries others : List (String × Datum)}
    (h : entries.Perm others) (hnodup : (entries.map Prod.fst).Nodup) (name : String) :
    entries.lookup name = others.lookup name := by
  have hnodup' : (others.map Prod.fst).Nodup := (h.map Prod.fst).nodup_iff.1 hnodup
  refine Option.ext fun d => ?_
  rw [lookup_eq_some_iff_mem hnodup, lookup_eq_some_iff_mem hnodup', h.mem_iff]

private theorem rel_lookup {fields inOrder : List (String × Datum)}
    (h : List.Forall₂ (fun field found => field.1 = found.1 ∧ Reordered field.2 found.2)
      fields inOrder) : Record fields inOrder := by
  intro name
  induction h with
  | nil => exact .none
  | @cons field found _ _ hfield _ ih =>
    obtain ⟨key, d⟩ := field
    obtain ⟨_, other⟩ := found
    obtain ⟨rfl, hd⟩ := hfield
    rw [List.lookup_cons, List.lookup_cons]
    cases name == key with
    | true => exact .some hd
    | false => exact ih

/-- The fields of a record are found in whatever order they stand. -/
theorem Reordered.exists_record {fields : List (String × Datum)} {other : Datum}
    (h : Reordered (.table fields) other) (names : List String)
    (hnames : ∀ field ∈ fields, field.1 ∈ names) (hnodup : (fields.map Prod.fst).Nodup) :
    ∃ record, other.record? names = some record ∧ Record fields record := by
  obtain ⟨inOrder, others, rfl, hperm, hfields⟩ := h.exists_entries
  have hkeys : fields.map Prod.fst = inOrder.map Prod.fst := by
    clear h hnames hnodup hperm
    induction hfields with
    | nil => rfl
    | cons hfield _ ih => rw [List.map_cons, List.map_cons, hfield.1, ih]
  have hothers : (fields.map Prod.fst).Perm (others.map Prod.fst) := hkeys ▸ hperm.map Prod.fst
  refine ⟨others, ?_, fun name => ?_⟩
  · refine if_pos ⟨List.all_eq_true.2 fun entry hentry => ?_, hothers.nodup_iff.1 hnodup⟩
    obtain ⟨field, hfield, hkey⟩ :=
      List.mem_map.1 (hothers.mem_iff.2 (List.mem_map_of_mem hentry))
    exact List.contains_iff_mem.2 (hkey ▸ hnames field hfield)
  · rw [← lookup_eq_of_perm hperm (hkeys ▸ hnodup)]
    exact rel_lookup hfields name

/-- A field that is written is read back. -/
theorem Record.field? {fields record : List (String × Datum)} (h : Record fields record)
    (name : String) {d : Datum} {value : α} (hlookup : fields.lookup name = some d)
    (hvalue : Yields decode d value) : Datum.field? record name decode = some value := by
  have hrel := h name
  rw [hlookup] at hrel
  rw [Datum.field?]
  cases hrecord : record.lookup name with
  | none => rw [hrecord] at hrel; cases hrel
  | some other =>
    rw [hrecord] at hrel
    cases hrel with
    | some hother => exact hvalue other hother

/-- A field that has a default value is read back when it is written. -/
theorem Record.fieldD? {fields record : List (String × Datum)} (h : Record fields record)
    (name : String) {d : Datum} {value default : α} (hlookup : fields.lookup name = some d)
    (hvalue : Yields decode d value) : Datum.fieldD? record name default decode = some value := by
  have hfield := h.field? name hlookup hvalue
  rw [Datum.field?] at hfield
  rw [Datum.fieldD?]
  cases hrecord : record.lookup name with
  | none => rw [hrecord] at hfield; cases hfield
  | some other => rwa [hrecord] at hfield

/-- Reading goes on with a field that is written. -/
theorem Record.field?_bind {fields record : List (String × Datum)} (h : Record fields record)
    (name : String) {d : Datum} {value : α} (hlookup : fields.lookup name = some d)
    (hvalue : Yields decode d value) {next : α → Option β} {result : β}
    (hnext : next value = some result) :
    (Datum.field? record name decode >>= next) = some result := by
  rw [h.field? name hlookup hvalue]
  exact hnext

/-- Reading goes on with a field that has a default value and is written. -/
theorem Record.fieldD?_bind {fields record : List (String × Datum)} (h : Record fields record)
    (name : String) {d : Datum} {value default : α} (hlookup : fields.lookup name = some d)
    (hvalue : Yields decode d value) {next : α → Option β} {result : β}
    (hnext : next value = some result) :
    (Datum.fieldD? record name default decode >>= next) = some result := by
  rw [h.fieldD? name hlookup hvalue]
  exact hnext

/-- A field that is left out has its default value. -/
theorem Record.fieldD?_of_none {fields record : List (String × Datum)} (h : Record fields record)
    (name : String) {default : α} (hlookup : fields.lookup name = none) :
    Datum.fieldD? record name default decode = some default := by
  have hrel := h name
  rw [hlookup] at hrel
  rw [Datum.fieldD?]
  cases hrecord : record.lookup name with
  | none => rfl
  | some other => rw [hrecord] at hrel; cases hrel

end SeedLogic.Datum
