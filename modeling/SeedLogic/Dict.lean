/-!
# Ordered dictionaries

A dictionary is a list of entries in strictly increasing order of their keys. Two dictionaries
with the same entries are therefore equal, and listing one gives its keys in order. A set of names
is a dictionary without values.
-/

namespace SeedLogic

/-- Finitely many keys with a value for each, in increasing order of the keys. -/
@[ext] structure Dict (κ α : Type) [LT κ] where
  entries : List (κ × α)
  sorted : entries.Pairwise fun a b => a.1 < b.1

namespace Dict

private theorem lookup_cons_eq_ite {κ α : Type} [DecidableEq κ] (key other : κ) (value : α)
    (rest : List (κ × α)) :
    ((key, value) :: rest).lookup other =
      if other = key then some value else rest.lookup other := by
  rw [List.lookup_cons]
  by_cases h : other = key
  · simp [h]
  · simp [h, beq_eq_false_iff_ne.2 h]

variable {κ α : Type} [LT κ]

/-- Dictionaries are equal when their entries are. -/
instance [DecidableEq κ] [DecidableEq α] : DecidableEq (Dict κ α) := fun a b =>
  if h : a.entries = b.entries then isTrue (Dict.ext h) else isFalse fun heq => h (heq ▸ rfl)

instance [Repr κ] [Repr α] : Repr (Dict κ α) := ⟨fun d prec => reprPrec d.entries prec⟩

/-- The dictionary without entries. -/
def empty : Dict κ α := ⟨[], .nil⟩

instance : EmptyCollection (Dict κ α) := ⟨empty⟩

instance : Inhabited (Dict κ α) := ⟨empty⟩

/-- The number of entries. -/
def size (d : Dict κ α) : Nat := d.entries.length

/-- The keys in increasing order. -/
def keys (d : Dict κ α) : List κ := d.entries.map Prod.fst

/-- The entries whose key passes a test. -/
def filterKeys (test : κ → Bool) (d : Dict κ α) : Dict κ α :=
  ⟨d.entries.filter fun entry => test entry.1, d.sorted.filter _⟩

variable [DecidableEq κ]

/-- The value at a key. -/
def get? (d : Dict κ α) (key : κ) : Option α := d.entries.lookup key

/-- A key is listed with its value. -/
theorem mem_entries_of_get? {d : Dict κ α} {key : κ} {value : α} (h : d.get? key = some value) :
    (key, value) ∈ d.entries := by
  obtain ⟨front, back, hentries, -⟩ := List.lookup_eq_some_iff.1 h
  simp [hentries]

/-- A key that has a value is listed. -/
theorem mem_keys_of_get? {d : Dict κ α} {key : κ} {value : α} (h : d.get? key = some value) :
    key ∈ d.keys :=
  List.mem_map_of_mem (mem_entries_of_get? h)

/-- Whether a key has a value. -/
def contains (d : Dict κ α) (key : κ) : Bool := (d.get? key).isSome

/-- The dictionary without a key. -/
def erase (d : Dict κ α) (key : κ) : Dict κ α := d.filterKeys (· ≠ key)

/-- A filter keeps the values at the keys that pass the test. -/
theorem get?_filterKeys (test : κ → Bool) (d : Dict κ α) (key : κ) :
    (d.filterKeys test).get? key = if test key = true then d.get? key else none := by
  obtain ⟨entries, sorted⟩ := d
  simp only [get?, filterKeys]
  clear sorted
  induction entries with
  | nil => simp
  | cons entry rest ih =>
    obtain ⟨k, v⟩ := entry
    rw [List.filter_cons]
    by_cases hk : test k = true
    · rw [if_pos hk, lookup_cons_eq_ite, lookup_cons_eq_ite, ih]
      by_cases h : key = k
      · simp [h, hk]
      · simp [h]
    · rw [if_neg hk, lookup_cons_eq_ite, ih]
      by_cases h : key = k
      · simp [h, hk]
      · simp [h]

/-- Dropping a key leaves the values at all other keys. -/
theorem get?_erase (d : Dict κ α) (key other : κ) :
    (d.erase key).get? other = if other = key then none else d.get? other := by
  rw [erase, get?_filterKeys]
  by_cases h : other = key <;> simp [h]

variable [DecidableLT κ]

/-- The ordered entries with a key set to a value. -/
def insertEntry (key : κ) (value : α) : List (κ × α) → List (κ × α)
  | [] => [(key, value)]
  | entry :: rest =>
    if key < entry.1 then (key, value) :: entry :: rest
    else if key = entry.1 then (key, value) :: rest
    else entry :: insertEntry key value rest

/-- Setting a key adds no entry but its own. -/
theorem mem_insertEntry {key : κ} {value : α} {entries : List (κ × α)} {entry : κ × α}
    (h : entry ∈ insertEntry key value entries) : entry.1 = key ∨ entry ∈ entries := by
  induction entries with
  | nil => simp_all [insertEntry]
  | cons first rest ih =>
    rw [insertEntry] at h
    split at h
    · simp only [List.mem_cons] at h ⊢
      rcases h with rfl | h | h <;> simp_all
    · split at h
      · simp only [List.mem_cons] at h ⊢
        rcases h with rfl | h <;> simp_all
      · simp only [List.mem_cons] at h ⊢
        rcases h with h | h
        · simp_all
        · rcases ih h with h | h <;> simp_all

variable [LE κ] [Std.IsLinearOrder κ] [Std.LawfulOrderLT κ]

/-- Setting a key keeps the entries in order. -/
theorem sorted_insertEntry (key : κ) (value : α) {entries : List (κ × α)}
    (h : entries.Pairwise fun a b => a.1 < b.1) :
    (insertEntry key value entries).Pairwise fun a b => a.1 < b.1 := by
  induction entries with
  | nil => simp [insertEntry]
  | cons entry rest ih =>
    rw [List.pairwise_cons] at h
    rw [insertEntry]
    split
    case isTrue hlt =>
      refine List.pairwise_cons.2 ⟨fun other hmem => ?_, List.pairwise_cons.2 h⟩
      rcases List.mem_cons.1 hmem with rfl | hmem
      · exact hlt
      · exact Std.lt_trans hlt (h.1 other hmem)
    case isFalse hnlt =>
      split
      case isTrue heq => exact List.pairwise_cons.2 ⟨fun other hmem => heq ▸ h.1 other hmem, h.2⟩
      case isFalse hne =>
        refine List.pairwise_cons.2 ⟨fun other hmem => ?_, ih h.2⟩
        rcases mem_insertEntry hmem with heq | hmem
        · rcases Std.lt_trichotomy key entry.1 with hlt | heq' | hlt
          · exact absurd hlt hnlt
          · exact absurd heq' hne
          · exact heq ▸ hlt
        · exact h.1 other hmem

/-- The dictionary with a key set to a value. -/
def insert (d : Dict κ α) (key : κ) (value : α) : Dict κ α :=
  ⟨insertEntry key value d.entries, sorted_insertEntry key value d.sorted⟩

/-- Setting a key changes the value at that key and at no other one. -/
theorem get?_insert (d : Dict κ α) (key : κ) (value : α) (other : κ) :
    (d.insert key value).get? other = if other = key then some value else d.get? other := by
  obtain ⟨entries, sorted⟩ := d
  simp only [get?, insert]
  clear sorted
  induction entries with
  | nil => rw [insertEntry, lookup_cons_eq_ite]
  | cons entry rest ih =>
    obtain ⟨k, v⟩ := entry
    rw [insertEntry]
    split
    · rw [lookup_cons_eq_ite]
    · split
      case isTrue hkey =>
        rw [lookup_cons_eq_ite, lookup_cons_eq_ite]
        by_cases h : other = key <;> simp_all
      case isFalse hkey =>
        rw [lookup_cons_eq_ite, lookup_cons_eq_ite, ih]
        by_cases h : other = key <;> simp_all

omit [DecidableLT κ] [Std.IsLinearOrder κ] in
/-- The entries are the keys with their values. -/
theorem mem_entries_iff_get? {d : Dict κ α} {key : κ} {value : α} :
    (key, value) ∈ d.entries ↔ d.get? key = some value := by
  refine ⟨fun hmem => ?_, mem_entries_of_get?⟩
  obtain ⟨entries, sorted⟩ := d
  rw [get?]
  induction entries with
  | nil => cases hmem
  | cons entry rest ih =>
    obtain ⟨k, v⟩ := entry
    rw [List.pairwise_cons] at sorted
    rw [lookup_cons_eq_ite]
    rcases List.mem_cons.1 hmem with heq | hmem
    · cases heq
      rw [if_pos rfl]
    · have hlt : k < key := sorted.1 _ hmem
      rw [if_neg fun h => Std.lt_irrefl (h ▸ hlt)]
      exact ih sorted.2 hmem

omit [DecidableLT κ] in
/-- Dictionaries with the same value at every key are equal. -/
theorem ext_get? {d e : Dict κ α} (h : ∀ key, d.get? key = e.get? key) : d = e := by
  have hmem (entry : κ × α) : entry ∈ d.entries ↔ entry ∈ e.entries := by
    obtain ⟨key, value⟩ := entry
    rw [mem_entries_iff_get?, mem_entries_iff_get?, h]
  have hnodup (d : Dict κ α) : d.entries.Nodup :=
    d.sorted.imp fun {a b} hlt (heq : a = b) => Std.lt_irrefl (heq ▸ hlt)
  refine Dict.ext (List.Perm.eq_of_pairwise (fun a b _ _ hab hba => ?_) d.sorted e.sorted
    ((List.perm_ext_iff_of_nodup (hnodup d) (hnodup e)).2 hmem))
  exact absurd (Std.lt_trans hab hba) Std.lt_irrefl

/-- The dictionary of a list of entries. Of several entries with one key the last counts. -/
def ofList (entries : List (κ × α)) : Dict κ α :=
  entries.foldl (fun d entry => d.insert entry.1 entry.2) empty

private theorem get?_foldl_insert (entries : List (κ × α)) (d : Dict κ α) (key : κ) :
    (entries.foldl (fun d entry => d.insert entry.1 entry.2) d).get? key =
      (entries.reverse.lookup key).or (d.get? key) := by
  induction entries generalizing d with
  | nil => simp
  | cons entry entries ih =>
    obtain ⟨other, value⟩ := entry
    rw [List.foldl_cons, ih, List.reverse_cons, List.lookup_append, Option.or_assoc, get?_insert,
      lookup_cons_eq_ite]
    by_cases h : key = other <;> simp [h]

/-- The value at a key is that of its last entry. -/
theorem get?_ofList (entries : List (κ × α)) (key : κ) :
    (ofList entries).get? key = entries.reverse.lookup key := by
  rw [ofList, get?_foldl_insert]
  exact Option.or_none

/-- A dictionary is made of its entries, in whatever order they are listed. -/
theorem ofList_eq_of_perm {entries : List (κ × α)} {d : Dict κ α}
    (h : entries.Perm d.entries) : ofList entries = d := by
  have hmem (entry : κ × α) : entry ∈ entries.reverse ↔ entry ∈ d.entries :=
    List.mem_reverse.trans h.mem_iff
  refine ext_get? fun key => ?_
  rw [get?_ofList]
  cases hlookup : entries.reverse.lookup key with
  | some value =>
    obtain ⟨front, back, hentries, -⟩ := List.lookup_eq_some_iff.1 hlookup
    exact (mem_entries_iff_get?.1 ((hmem _).1 (by simp [hentries]))).symm
  | none =>
    cases hget : d.get? key with
    | none => rfl
    | some value =>
      have hne := List.lookup_eq_none_iff.1 hlookup _ ((hmem _).2 (mem_entries_of_get? hget))
      simp at hne

end Dict

/-- A finite set of names, in increasing order. -/
abbrev NameSet := Dict String Unit

namespace NameSet

/-- The set with a name added. -/
def add (names : NameSet) (name : String) : NameSet := Dict.insert names name ()

/-- Adding a name adds no other one. -/
@[simp]
theorem contains_add (names : NameSet) (name other : String) :
    (names.add name).contains other = (decide (other = name) || names.contains other) := by
  rw [Dict.contains, add, Dict.get?_insert]
  by_cases h : other = name <;> simp [h, Dict.contains]

/-- Dropping a name drops no other one. -/
@[simp]
theorem contains_erase (names : NameSet) (name other : String) :
    Dict.contains (names.erase name) other = (!decide (other = name) && names.contains other) := by
  rw [Dict.contains, Dict.get?_erase]
  by_cases h : other = name <;> simp [h, Dict.contains]

/-- Sets with the same names are equal. -/
theorem ext_contains {names others : NameSet}
    (h : ∀ name, names.contains name = others.contains name) : names = others := by
  refine Dict.ext_get? fun name => ?_
  have hname := h name
  simp only [Dict.contains] at hname
  cases hleft : names.get? name <;> cases hright : others.get? name <;>
    simp_all

/-- The set of the names in a list. -/
def ofNames (names : List String) : NameSet := names.foldl add Dict.empty

/-- A set is made of its names. -/
theorem ofNames_keys (names : NameSet) : ofNames names.keys = names := by
  have hentries : ofNames names.keys = Dict.ofList names.entries := by
    rw [ofNames, Dict.keys, Dict.ofList, List.foldl_map]
    rfl
  rw [hentries, Dict.ofList_eq_of_perm (List.Perm.refl _)]

end NameSet

end SeedLogic
