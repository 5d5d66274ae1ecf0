import BuildPipeline.Text.Basic
import BuildPipeline.Text.Blank

/-! Tables with text keys in the order they are listed: keys that are array
indexes ascending, then the others in the order they were first assigned. -/

namespace BuildPipeline

/-- The number a key stands for, when it is the plain numeral of an array index. -/
def arrayIndex? (key : Text) : Option Nat :=
  let value := digitsValue key
  if decimal value = key ∧ value < 4294967295 then some value else none

def listedBefore (left right : Text) : Bool :=
  match arrayIndex? left, arrayIndex? right with
  | some first, some second => first ≤ second
  | some _, none => true
  | none, some _ => false
  | none, none => true

variable {α : Type _}

/-- A later entry takes the place of an earlier one with its key. -/
def assignEntry (entries : List (Text × α)) (key : Text) (value : α) : List (Text × α) :=
  if key ∈ entries.map Prod.fst then
    entries.map fun entry => if entry.1 = key then (key, value) else entry
  else entries ++ [(key, value)]

def assignEntries (entries added : List (Text × α)) : List (Text × α) :=
  added.foldl (fun entries entry => assignEntry entries entry.1 entry.2) entries

def listEntries (entries : List (Text × α)) : List (Text × α) :=
  sortBy (fun left right => listedBefore left.1 right.1) entries

theorem nodup_assignEntry {entries : List (Text × α)} (unique : (entries.map Prod.fst).Nodup)
    (key : Text) (value : α) : ((assignEntry entries key value).map Prod.fst).Nodup := by
  unfold assignEntry
  split
  · have same : ((entries.map fun entry => if entry.1 = key then (key, value) else entry).map Prod.fst) =
        entries.map Prod.fst := by
      rw [List.map_map]
      refine List.map_congr_left fun entry _ => ?_
      by_cases equal : entry.1 = key <;> simp [equal]
    rw [same]
    exact unique
  next absent =>
    rw [List.map_append, List.nodup_append]
    refine ⟨unique, by simp, ?_⟩
    intro one first other second equal
    simp only [List.map_cons, List.map_nil, List.mem_singleton] at second
    subst equal second
    exact absent first

theorem nodup_assignEntries {entries : List (Text × α)} (unique : (entries.map Prod.fst).Nodup)
    (added : List (Text × α)) : ((assignEntries entries added).map Prod.fst).Nodup := by
  unfold assignEntries
  induction added generalizing entries with
  | nil => exact unique
  | cons entry rest ih => exact ih (nodup_assignEntry unique entry.1 entry.2)

theorem nodup_listEntries {entries : List (Text × α)} (unique : (entries.map Prod.fst).Nodup) :
    ((listEntries entries).map Prod.fst).Nodup :=
  ((sortBy_perm _ entries).map Prod.fst).nodup_iff.2 unique

theorem nodup_assigned (entries : List (Text × α)) :
    ((assignEntries [] entries).map Prod.fst).Nodup := by
  apply nodup_assignEntries
  simp

theorem mem_of_lookup {entries : List (Text × α)} {key : Text} {value : α} (found : entries.lookup key = some value) :
    (key, value) ∈ entries := by
  obtain ⟨before, after, rfl, _⟩ := List.lookup_eq_some_iff.1 found
  simp

structure Table (α : Type _) where
  entries : List (Text × α)
  unique : (entries.map Prod.fst).Nodup
deriving DecidableEq

/-- The key that names what stands behind a record instead of a member of it. -/
def backingKey : Text := "__proto__"

namespace Table

def empty : Table α := ⟨[], .nil⟩

instance : Inhabited (Table α) := ⟨empty⟩

def ofEntries (entries : List (Text × α)) : Table α :=
  ⟨listEntries (assignEntries [] entries), nodup_listEntries (nodup_assigned entries)⟩

def keys (table : Table α) : List Text :=
  table.entries.map Prod.fst

def size (table : Table α) : Nat :=
  table.entries.length

def get? (table : Table α) (key : Text) : Option α :=
  table.entries.lookup key

def contains (table : Table α) (key : Text) : Bool :=
  table.keys.contains key

def mapValues (change : α → β) (table : Table α) : Table β :=
  ⟨table.entries.map fun entry => (entry.1, change entry.2), by
    simpa [List.map_map, Function.comp_def] using table.unique⟩

/-- Entries of `added` win over those of `table`. -/
def merge (table added : Table α) : Table α :=
  ofEntries (table.entries ++ added.entries)

/-- Entries in the order of their keys as text. -/
def sortedEntries (table : Table α) : List (Text × α) :=
  sortBy (fun left right => textLe left.1 right.1) table.entries

/-- Assigned anew in key order. The key of the backing takes no assignment. -/
def sorted (table : Table α) : Table α :=
  ofEntries (table.sortedEntries.filter fun entry => entry.1 ≠ backingKey)

end Table

end BuildPipeline
