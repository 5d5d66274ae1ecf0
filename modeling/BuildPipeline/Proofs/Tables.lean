import BuildPipeline.Proofs.Ordering
import Mathlib.Data.List.Nodup

/-! What is found under a key, for entries that have each key once. -/

namespace BuildPipeline

variable {α : Type _}

theorem lookup_eq_some_iff_mem {entries : List (Text × α)} (unique : (entries.map Prod.fst).Nodup)
    {key : Text} {value : α} : entries.lookup key = some value ↔ (key, value) ∈ entries := by
  induction entries with
  | nil => simp
  | cons entry rest ih =>
    obtain ⟨absent, distinct⟩ := List.nodup_cons.1 unique
    rw [List.lookup_cons]
    by_cases same : key = entry.1
    · subst same
      simp only [beq_self_eq_true, Option.some.injEq, List.mem_cons]
      constructor
      · rintro rfl
        exact .inl rfl
      · rintro (first | later)
        · rw [← first]
        · exact absurd (List.mem_map_of_mem later) absent
    · have apart : (key, value) ≠ entry := fun equal => same (congrArg Prod.fst equal)
      have unequal : (key == entry.1) = false := by simpa using same
      simp only [unequal, List.mem_cons, apart, false_or, ih distinct]

theorem exists_lookup_of_mem {entries : List (Text × α)} {key : Text}
    (listed : key ∈ entries.map Prod.fst) : ∃ value, entries.lookup key = some value := by
  cases found : entries.lookup key with
  | some value => exact ⟨value, rfl⟩
  | none =>
    obtain ⟨entry, member, rfl⟩ := List.mem_map.1 listed
    simpa using List.lookup_eq_none_iff.1 found entry member

theorem lookup_eq_of_perm {left right : List (Text × α)} (unique : (left.map Prod.fst).Nodup)
    (same : left.Perm right) (key : Text) : left.lookup key = right.lookup key := by
  apply Option.ext
  intro value
  rw [lookup_eq_some_iff_mem unique, lookup_eq_some_iff_mem ((same.map Prod.fst).nodup_iff.1 unique),
    same.mem_iff]

theorem lookup_cons_eq {κ : Type _} [BEq κ] [LawfulBEq κ] [DecidableEq κ] (entry : κ × α) (rest : List (κ × α))
    (key : κ) : (entry :: rest).lookup key = if key = entry.1 then some entry.2 else rest.lookup key := by
  obtain ⟨name, value⟩ := entry
  by_cases same : key = name
  · simp [same]
  · simp [List.lookup_cons, same, beq_eq_false_iff_ne.2 same]

theorem lookup_eq_none {entries : List (Text × α)} {key : Text} (absent : key ∉ entries.map Prod.fst) :
    entries.lookup key = none := by
  refine List.lookup_eq_none_iff.2 fun entry listed => ?_
  simpa using fun same : key = entry.1 => absent (same ▸ List.mem_map_of_mem listed)

theorem lookup_filter_key {κ : Type _} [BEq κ] [LawfulBEq κ] [DecidableEq κ] (keep : κ → Bool)
    (entries : List (κ × α)) (key : κ) :
    (entries.filter fun entry => keep entry.1).lookup key = if keep key then entries.lookup key else none := by
  induction entries with
  | nil => simp
  | cons entry rest ih =>
    rw [List.filter_cons, lookup_cons_eq]
    by_cases kept : keep entry.1 = true
    · rw [if_pos kept, lookup_cons_eq, ih]
      by_cases same : key = entry.1 <;> simp [same, kept]
    · rw [if_neg kept, ih]
      by_cases same : key = entry.1 <;> simp [same, kept]

theorem lookup_mapValues {β : Type _} (change : α → β) (entries : List (Text × α)) (key : Text) :
    (entries.map fun entry => (entry.1, change entry.2)).lookup key = (entries.lookup key).map change := by
  induction entries with
  | nil => rfl
  | cons entry rest ih =>
    rw [List.map_cons, lookup_cons_eq, lookup_cons_eq, ih]
    by_cases same : key = entry.1 <;> simp [same]

theorem lookup_updated (change : α → α) (entries : List (Text × α)) (key other : Text) :
    (entries.map fun entry => if entry.1 = key then (key, change entry.2) else entry).lookup other =
      (entries.lookup other).map fun old => if other = key then change old else old := by
  induction entries with
  | nil => rfl
  | cons entry rest ih =>
    rw [List.map_cons, lookup_cons_eq, lookup_cons_eq, ih]
    by_cases named : entry.1 = key
    · by_cases same : other = key <;> simp [named, same]
    · by_cases same : other = entry.1 <;> simp [named, same]

theorem lookup_assignEntry (entries : List (Text × α)) (key : Text) (value : α) (other : Text) :
    (assignEntry entries key value).lookup other = if other = key then some value else entries.lookup other := by
  unfold assignEntry
  split
  next listed =>
    rw [lookup_updated fun _ => value]
    by_cases same : other = key
    · obtain ⟨old, found⟩ := exists_lookup_of_mem listed
      simp [same, found]
    · simp [same]
  next fresh =>
    rw [List.lookup_append, lookup_cons_eq]
    by_cases same : other = key
    · simp [same, lookup_eq_none fresh]
    · simp [same]

/-- The last assignment of a key is what is found under it. -/
theorem lookup_assignEntries (entries added : List (Text × α)) (key : Text) :
    (assignEntries entries added).lookup key = (added.reverse.lookup key).or (entries.lookup key) := by
  induction added generalizing entries with
  | nil => rfl
  | cons entry rest ih =>
    rw [assignEntries, List.foldl_cons, ← assignEntries, ih, lookup_assignEntry, List.reverse_cons,
      List.lookup_append, Option.or_assoc, lookup_cons_eq]
    by_cases same : key = entry.1 <;> simp [same]

theorem assignEntries_of_nodup (added entries : List (Text × α))
    (unique : ((entries ++ added).map Prod.fst).Nodup) : assignEntries entries added = entries ++ added := by
  induction added generalizing entries with
  | nil => exact (List.append_nil entries).symm
  | cons entry rest ih =>
    have again : entries ++ entry :: rest = (entries ++ [entry]) ++ rest := by simp
    have fresh : entry.1 ∉ entries.map Prod.fst := by
      rw [List.map_append, List.map_cons, List.nodup_append] at unique
      exact fun listed => unique.2.2 _ listed _ List.mem_cons_self rfl
    rw [again] at unique ⊢
    rw [← ih _ unique, assignEntries, List.foldl_cons, assignEntry, if_neg fresh]
    rfl

namespace Table

variable {table : Table α}

theorem ext_entries {left right : Table α} (same : left.entries = right.entries) : left = right := by
  cases left
  cases right
  simpa using same

theorem get?_eq_some_iff {key : Text} {value : α} :
    table.get? key = some value ↔ (key, value) ∈ table.entries :=
  lookup_eq_some_iff_mem table.unique

theorem exists_get?_of_mem_keys {key : Text} (listed : key ∈ table.keys) :
    ∃ value, table.get? key = some value :=
  exists_lookup_of_mem listed

theorem mem_keys_iff {key : Text} : key ∈ table.keys ↔ ∃ value, table.get? key = some value := by
  constructor
  · exact exists_get?_of_mem_keys
  · rintro ⟨value, found⟩
    exact List.mem_map_of_mem (f := Prod.fst) (get?_eq_some_iff.1 found)

theorem entries_ofEntries {entries : List (Text × α)} (unique : (entries.map Prod.fst).Nodup) :
    (ofEntries entries).entries = listEntries entries := by
  have assigned := assignEntries_of_nodup entries [] unique
  change listEntries (assignEntries [] entries) = _
  rw [assigned, List.nil_append]

theorem nodup_sortedEntries (table : Table α) : (table.sortedEntries.map Prod.fst).Nodup :=
  ((sortBy_perm _ table.entries).map Prod.fst).nodup_iff.2 table.unique

theorem nodup_plainEntries (table : Table α) :
    ((table.sortedEntries.filter fun entry => entry.1 ≠ backingKey).map Prod.fst).Nodup :=
  List.Sublist.nodup (List.filter_sublist.map Prod.fst) table.nodup_sortedEntries

theorem get?_ofEntries (entries : List (Text × α)) (key : Text) :
    (ofEntries entries).get? key = entries.reverse.lookup key := by
  have listed := lookup_eq_of_perm (nodup_listEntries (nodup_assigned entries)) (sortBy_perm _ _) key
  rw [get?, ofEntries, listed, lookup_assignEntries]
  exact Option.or_none

theorem lookup_reverse_entries (table : Table α) (key : Text) : table.entries.reverse.lookup key = table.get? key :=
  (lookup_eq_of_perm table.unique (List.reverse_perm table.entries).symm key).symm

theorem get?_merge (table added : Table α) (key : Text) :
    (table.merge added).get? key = (added.get? key).or (table.get? key) := by
  rw [merge, get?_ofEntries, List.reverse_append, List.lookup_append, lookup_reverse_entries,
    lookup_reverse_entries]

theorem nodup_entries (table : Table α) : table.entries.Nodup :=
  List.Nodup.of_map Prod.fst table.unique

/-- Two tables list the same in key order when each key has the same value in both. -/
theorem sortedEntries_eq_iff {left right : Table α} :
    left.sortedEntries = right.sortedEntries ↔ ∀ key, left.get? key = right.get? key := by
  constructor
  · intro same key
    have members : ∀ value, left.get? key = some value ↔ right.get? key = some value := by
      intro value
      have listed : (key, value) ∈ left.sortedEntries ↔ (key, value) ∈ right.sortedEntries := by rw [same]
      simpa [sortedEntries, get?_eq_some_iff] using listed
    exact Option.ext members
  · intro same
    refine sortBy_eq_of_perm (textLe_ordered.onKey Prod.fst) ?_ ?_
    · intro first member second other forward backward
      exact List.inj_on_of_nodup_map left.unique member other (textLe_antisymm _ _ forward backward)
    · refine perm_of_mem_iff left.nodup_entries right.nodup_entries fun entry => ?_
      rw [← get?_eq_some_iff, ← get?_eq_some_iff, same]

theorem sorted_eq_of_get?_eq {left right : Table α} (same : ∀ key, left.get? key = right.get? key) :
    left.sorted = right.sorted := by
  rw [sorted, sorted, sortedEntries_eq_iff.2 same]

theorem get?_mapValues {β : Type _} (change : α → β) (table : Table α) (key : Text) :
    (table.mapValues change).get? key = (table.get? key).map change :=
  lookup_mapValues change table.entries key

/-- Sorting looks at keys alone. -/
theorem sorted_mapValues {β : Type _} (change : α → β) (table : Table α) :
    (table.mapValues change).sorted = table.sorted.mapValues change := by
  let step (entry : Text × α) : Text × β := (entry.1, change entry.2)
  have plain : ((table.mapValues change).sortedEntries.filter fun entry => entry.1 ≠ backingKey) =
      (table.sortedEntries.filter fun entry => entry.1 ≠ backingKey).map step := by
    rw [sortedEntries, sortedEntries, mapValues, sortBy_map step fun _ _ => rfl, List.filter_map]
    rfl
  apply ext_entries
  rw [sorted, entries_ofEntries (table.mapValues change).nodup_plainEntries, plain]
  change listEntries _ = table.sorted.entries.map step
  rw [sorted, entries_ofEntries table.nodup_plainEntries]
  exact sortBy_map step (fun _ _ => rfl) _

/-- Sorting loses nothing but the key of the backing. -/
theorem get?_sorted (table : Table α) (key : Text) :
    table.sorted.get? key = if key = backingKey then none else table.get? key := by
  have kept := lookup_filter_key (fun name => decide (name ≠ backingKey)) table.sortedEntries key
  rw [sorted, get?_ofEntries, ← lookup_eq_of_perm table.nodup_plainEntries (List.reverse_perm _).symm, kept,
    lookup_eq_of_perm table.nodup_sortedEntries (sortBy_perm _ table.entries)]
  by_cases backing : key = backingKey <;> simp [backing, get?]

end Table

end BuildPipeline
