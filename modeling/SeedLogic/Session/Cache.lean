import SeedLogic.Requirement.Basic
import SeedLogic.Session.Audit

/-!
# Remembered answers

A cache maps questions to answers, where the question determines the type of its answer. The
answers about requirement trees and small keys depend on which bosses are required; all other
answers depend on the tables and the settings alone. Each kind of question has a table of its own,
and answers are counted table by table.
-/

namespace SeedLogic

/-- The kinds of sea charts. -/
inductive ChartKind where
  | treasure
  | triforce
deriving DecidableEq, Repr

/-- The chart of an island when charts are not shuffled. -/
structure VanillaChart where
  name : String
  kind : ChartKind
deriving DecidableEq, Repr

/-- The tables of a cache. -/
inductive CacheTable where
  | rawLocations
  | locations
  | entrances
  | smallKeys
  | pools
  | chartLists
  | chartFlags
  | chartIslands
  | vanillaCharts
  | names
deriving DecidableEq, Repr

namespace CacheTable

/-- The tables of requirement trees and small keys. -/
def ofBosses : List CacheTable := [.rawLocations, .locations, .entrances, .smallKeys]

/-- The tables of entrance pools, charts and display names. -/
def lasting : List CacheTable :=
  [.pools, .chartLists, .chartFlags, .chartIslands, .vanillaCharts, .names]

end CacheTable

/-- A question whose answer is remembered. -/
inductive Question where
  | rawLocation (general detailed : String) (flattened : Bool)
  | location (general detailed : String) (flattened : Bool)
  | entrance (name : String)
  | smallKeys (general detailed : String)
  | allRandomEntrances
  | entrancesForExit (exit : String)
  | exitsForEntrance (entrance : String)
  | nestedEntrances (exit : String)
  | chartList (includeNonProgress : Bool)
  | anyProgressCharts
  | islandHasProgressChart (island : String)
  | chartIsland (chart : String)
  | vanillaChart (island : String)
  | itemName (item : String) (count : Option UInt32)
  | itemRequirementName (requirement : String)
deriving DecidableEq, Repr

namespace Question

/-- The type of the answer to a question. -/
abbrev Answer : Question → Type
  | .rawLocation .. => Requirement
  | .location .. => Requirement
  | .entrance _ => Requirement
  | .smallKeys .. => UInt32
  | .allRandomEntrances => List String
  | .entrancesForExit _ => List String
  | .exitsForEntrance _ => List String
  | .nestedEntrances _ => List String
  | .chartList _ => List String
  | .anyProgressCharts => Bool
  | .islandHasProgressChart _ => Bool
  | .chartIsland _ => Option String
  | .vanillaChart _ => VanillaChart
  | .itemName .. => String
  | .itemRequirementName _ => String

/-- The table that holds the answer to a question. -/
def table : Question → CacheTable
  | .rawLocation .. => .rawLocations
  | .location .. => .locations
  | .entrance _ => .entrances
  | .smallKeys .. => .smallKeys
  | .allRandomEntrances | .entrancesForExit _ | .exitsForEntrance _ | .nestedEntrances _ => .pools
  | .chartList _ => .chartLists
  | .anyProgressCharts | .islandHasProgressChart _ => .chartFlags
  | .chartIsland _ => .chartIslands
  | .vanillaChart _ => .vanillaCharts
  | .itemName .. | .itemRequirementName _ => .names

/-- Whether the answer depends on which bosses are required. -/
def isBossDependent : Question → Bool
  | .rawLocation .. | .location .. | .entrance _ | .smallKeys .. => true
  | _ => false

end Question

/-- The answers remembered so far, at most one to each question. -/
structure Cache where
  entries : List ((q : Question) × q.Answer)
  distinct : (entries.map Sigma.fst).Nodup

namespace Cache

/-- The cache without answers. -/
def empty : Cache := ⟨[], .nil⟩

/-- The remembered answer to a question in a list of entries. -/
def lookup (q : Question) : List ((q : Question) × q.Answer) → Option q.Answer
  | [] => none
  | ⟨asked, answer⟩ :: rest => if h : asked = q then some (h ▸ answer) else lookup q rest

/-- The remembered answer to a question. -/
def get? (c : Cache) (q : Question) : Option q.Answer := lookup q c.entries

/-- The entries whose question passes a test. -/
def filter (test : Question → Bool) (c : Cache) : Cache where
  entries := c.entries.filter fun entry => test entry.1
  distinct := (List.filter_sublist.map _).nodup c.distinct

/-- The cache with an answer added, in place of an earlier one to the same question. -/
def insert (c : Cache) (q : Question) (answer : q.Answer) : Cache where
  entries := ⟨q, answer⟩ :: (c.filter (· ≠ q)).entries
  distinct := by simpa [filter] using (c.filter (· ≠ q)).distinct

/-- The number of remembered answers in a table. -/
def tableSize (c : Cache) (table : CacheTable) : Nat :=
  c.entries.countP (·.1.table = table)

/-- The number of remembered answers in several tables. -/
def sizeIn (c : Cache) : List CacheTable → Nat
  | [] => 0
  | table :: rest => c.tableSize table + c.sizeIn rest

/-- The number of remembered answers. -/
def size (c : Cache) : Nat := c.sizeIn (CacheTable.ofBosses ++ CacheTable.lasting)

/-- The cache after an invalidation. -/
def invalidate (c : Cache) : InvalidationScope → Cache
  | .all => empty
  | .bossDependent => c.filter (!·.isBossDependent)

/-- The number of answers that an invalidation drops, which is that of the tables it clears. -/
def dropped (c : Cache) : InvalidationScope → Nat
  | .all => c.sizeIn CacheTable.ofBosses + c.sizeIn CacheTable.lasting
  | .bossDependent => c.sizeIn CacheTable.ofBosses

/-- Filtering keeps the answer to a question that passes the test and forgets every other one. -/
theorem get?_filter (c : Cache) (test : Question → Bool) (q : Question) :
    (c.filter test).get? q = if test q then c.get? q else none := by
  obtain ⟨entries, distinct⟩ := c
  simp only [get?, filter]
  clear distinct
  induction entries with
  | nil => simp [lookup]
  | cons entry rest ih =>
    obtain ⟨asked, answer⟩ := entry
    rw [List.filter_cons]
    by_cases hasked : test asked = true
    · rw [if_pos hasked, lookup, lookup, ih]
      by_cases h : asked = q
      · subst h
        simp [hasked]
      · simp [h]
    · rw [if_neg hasked, ih, lookup]
      by_cases h : asked = q
      · subst h
        simp [hasked]
      · simp [h]

/-- An answer that has just been added is remembered. -/
theorem get?_insert_self (c : Cache) (q : Question) (answer : q.Answer) :
    (c.insert q answer).get? q = some answer := by
  simp [get?, insert, lookup]

/-- Adding an answer changes no answer to another question. -/
theorem get?_insert_of_ne (c : Cache) {q other : Question} (answer : q.Answer) (h : other ≠ q) :
    (c.insert q answer).get? other = c.get? other := by
  have hfilter := c.get?_filter (· ≠ q) other
  simp only [ne_eq, h, not_false_eq_true, decide_true, if_true] at hfilter
  rw [← hfilter, get?, insert, lookup, dif_neg (Ne.symm h)]
  rfl

end Cache

end SeedLogic
