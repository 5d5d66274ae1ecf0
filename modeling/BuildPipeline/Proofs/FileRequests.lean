import BuildPipeline.Files.Disk
import BuildPipeline.Proofs.StoredText
import BuildPipeline.Proofs.Tables

/-! What a request can do to a disk. Each changes the place it names and no other, or
makes directories where nothing was. -/

namespace BuildPipeline

namespace Path

theorem length_names_of_mem_ancestors {upper lower : Path} (above : upper ∈ lower.ancestors) :
    upper.names.length < lower.names.length := by
  obtain ⟨count, fewer, rfl⟩ := List.mem_map.1 above
  have few := List.mem_range.1 fewer
  rw [List.length_take]
  omega

theorem notMem_ancestors (path : Path) : path ∉ path.ancestors := fun above =>
  Nat.lt_irrefl _ (length_names_of_mem_ancestors above)

/-- What is passed on the way down to a path: its parent, and what is above that. -/
theorem ancestors_parent {path : Path} (below : path ≠ .root) :
    path.parent.ancestors ++ [path.parent] = path.ancestors := by
  obtain ⟨names⟩ := path
  rcases List.eq_nil_or_concat names with rfl | ⟨front, last, rfl⟩
  · exact absurd rfl below
  · simp only [parent, ancestors, List.concat_eq_append, List.dropLast_concat, List.length_append,
      List.length_singleton, List.range_succ, List.map_append, List.map_singleton, List.take_left]
    congr 1
    refine List.map_congr_left fun count fewer => ?_
    rw [List.take_append_of_le_length (Nat.le_of_lt (List.mem_range.1 fewer))]

end Path

namespace Store

variable {store next : Store} {path place : Path}

@[simp] theorem get?_root (store : Store) : store.get? .root = some .directory :=
  if_pos rfl

theorem ne_root_of_get? (apart : store.get? path ≠ some .directory) : path ≠ .root := by
  rintro rfl
  exact apart store.get?_root

theorem lookup_filter_ne (store : Store) (path place : Path) :
    (store.entries.filter (·.1 ≠ path)).lookup place = if place = path then none else store.entries.lookup place := by
  have kept := lookup_filter_key (fun key : Path => decide (key ≠ path)) store.entries place
  rw [kept]
  by_cases same : place = path <;> simp [same]

theorem get?_put_of_ne (entry : Entry) (apart : place ≠ path) : (store.put path entry).get? place = store.get? place := by
  simp only [get?, put, lookup_cons_eq, lookup_filter_ne, apart, if_false]

theorem get?_put_self (entry : Entry) (below : path ≠ .root) : (store.put path entry).get? path = some entry := by
  simp [get?, put, below]

theorem get?_erase_of_ne (apart : place ≠ path) : (store.erase path).get? place = store.get? place := by
  simp only [get?, erase, lookup_filter_ne, apart, if_false]

theorem get?_erase_self (below : path ≠ .root) : (store.erase path).get? path = none := by
  simp only [get?, erase, lookup_filter_ne, below, if_false, if_true]

/-- Whether a place can be reached depends on the directories above it alone. -/
theorem fault?_eq_of_ancestors (same : ∀ upper ∈ path.ancestors, next.get? upper = store.get? upper) :
    next.fault? path = store.fault? path := by
  have faults : path.ancestors.findSome? next.directoryFault? = path.ancestors.findSome? store.directoryFault? := by
    rw [← List.head?_filterMap, ← List.head?_filterMap]
    congr 1
    exact List.filterMap_congr fun upper above => by rw [directoryFault?, directoryFault?, same upper above]
  rw [fault?, fault?, faults]

theorem fault?_put_self (store : Store) (path : Path) (entry : Entry) :
    (store.put path entry).fault? path = store.fault? path :=
  fault?_eq_of_ancestors fun _ above => get?_put_of_ne _ fun same => path.notMem_ancestors (same ▸ above)

theorem reach_eq_ok_iff {entry : Option Entry} :
    store.reach path = .ok entry ↔ store.fault? path = none ∧ store.get? path = entry := by
  unfold reach
  cases store.fault? path <;> simp

/-- A directory that is entered was there, or is made where nothing was. -/
theorem enter_eq_ok (entered : store.enter path = .ok next) :
    next = store ∨ store.get? path = none ∧ next = store.put path .directory := by
  unfold enter at entered
  split at entered
  · cases entered
  next free => exact .inr ⟨(reach_eq_ok_iff.1 free).2, (Except.ok.inj entered).symm⟩
  · exact .inl (Except.ok.inj entered).symm
  · cases entered

theorem get?_makeDirectories (store : Store) (paths : List Path) (place : Path) :
    (store.makeDirectories paths).1.get? place = store.get? place ∨
      store.get? place = none ∧ place ∈ paths ∧ (store.makeDirectories paths).1.get? place = some .directory := by
  induction paths generalizing store with
  | nil => exact .inl rfl
  | cons path rest ih =>
    unfold makeDirectories
    cases entered : store.enter path with
    | error fault => exact .inl rfl
    | ok next =>
      rcases enter_eq_ok entered with rfl | ⟨free, rfl⟩
      · rcases ih next with same | ⟨none, listed, made⟩
        · exact .inl same
        · exact .inr ⟨none, .tail _ listed, made⟩
      · have below : path ≠ .root := ne_root_of_get? fun directory => nomatch free.symm.trans directory
        by_cases named : place = path
        · subst named
          refine .inr ⟨free, List.mem_cons_self, ?_⟩
          rcases ih (store.put place .directory) with same | ⟨none, _, _⟩
          · exact same.trans (get?_put_self _ below)
          · simp [get?_put_self _ below] at none
        · have earlier := ih (store.put path .directory)
          rw [get?_put_of_ne _ named] at earlier
          rcases earlier with same | ⟨none, listed, made⟩
          · exact .inl same
          · exact .inr ⟨none, .tail _ listed, made⟩

theorem makeDirectories_append (store : Store) (first second : List Path) :
    store.makeDirectories (first ++ second) =
      match store.makeDirectories first with
      | (next, .ok ()) => next.makeDirectories second
      | failed => failed := by
  induction first generalizing store with
  | nil => rfl
  | cons path rest ih =>
    rw [List.cons_append, makeDirectories, makeDirectories]
    cases store.enter path with
    | error fault => rfl
    | ok next => exact ih next

/-- A file may be put there: the names can be given, and no file stands above the place
and no directory at it. -/
structure CanHold (store : Store) (path : Path) : Prop where
  named : ∀ name ∈ path.names, nameFault? name = none
  above : ∀ upper ∈ path.ancestors, ∀ text, store.get? upper ≠ some (.file text)
  free : store.get? path ≠ some .directory

theorem directoryFault?_eq_none_iff : store.directoryFault? path = none ↔ store.get? path = some .directory := by
  unfold directoryFault?
  split <;> simp_all

theorem fault?_eq_none_iff : store.fault? path = none ↔
    (∀ name ∈ path.names, nameFault? name = none) ∧ ∀ upper ∈ path.ancestors, store.get? upper = some .directory := by
  simp only [fault?, Option.or_eq_none_iff, List.findSome?_eq_none_iff, directoryFault?_eq_none_iff]

/-- A place that can be reached holds a file unless there is a directory. -/
theorem canHold_of_reachable (reachable : store.fault? path = none) (free : store.get? path ≠ some .directory) :
    store.CanHold path := by
  obtain ⟨named, directories⟩ := fault?_eq_none_iff.1 reachable
  exact ⟨named, fun upper above text file => (nomatch (directories upper above).symm.trans file), free⟩

theorem enter_ok (reachable : store.fault? path = none) (noFile : ∀ text, store.get? path ≠ some (.file text)) :
    ∃ next, store.enter path = .ok next ∧ next.get? path = some .directory ∧
      ∀ place ≠ path, next.get? place = store.get? place := by
  cases found : store.get? path with
  | none =>
    refine ⟨_, by rw [enter, reach_eq_ok_iff.2 ⟨reachable, found⟩], ?_, fun place apart => get?_put_of_ne _ apart⟩
    exact get?_put_self _ (ne_root_of_get? fun directory => nomatch found.symm.trans directory)
  | some entry =>
    cases entry with
    | file text => exact absurd found (noFile text)
    | directory => exact ⟨store, by rw [enter, reach_eq_ok_iff.2 ⟨reachable, found⟩], found, fun _ _ => rfl⟩

/-- With no file in the way all directories above a place can be made. -/
theorem makeDirectories_ok (holds : store.CanHold path) (count : Nat) (within : count ≤ path.names.length) :
    ∃ next, store.makeDirectories ((List.range count).map fun count => ⟨path.names.take count⟩) = (next, .ok ()) ∧
      ∀ shorter < count, next.get? ⟨path.names.take shorter⟩ = some .directory := by
  induction count with
  | zero => exact ⟨store, rfl, nofun⟩
  | succ count ih =>
    obtain ⟨next, made, directories⟩ := ih (by omega)
    have passable : next.fault? ⟨path.names.take count⟩ = none := by
      refine fault?_eq_none_iff.2 ⟨fun name listed => holds.named name (List.mem_of_mem_take listed), fun upper above => ?_⟩
      obtain ⟨shorter, fewer, rfl⟩ := List.mem_map.1 above
      simp only [List.mem_range, List.length_take] at fewer
      rw [List.take_take, Nat.min_eq_left (by omega)]
      exact directories shorter (by omega)
    have noFile : ∀ text, next.get? ⟨path.names.take count⟩ ≠ some (.file text) := by
      intro text file
      have grown := get?_makeDirectories store ((List.range count).map fun count => ⟨path.names.take count⟩)
        ⟨path.names.take count⟩
      rw [made] at grown
      rcases grown with same | ⟨_, _, directory⟩
      · exact holds.above _ (List.mem_map.2 ⟨count, List.mem_range.2 within, rfl⟩) text (same.symm.trans file)
      · exact nomatch file.symm.trans directory
    obtain ⟨last, entered, directory, others⟩ := enter_ok passable noFile
    rw [List.range_succ, List.map_append, makeDirectories_append, made, List.map_singleton]
    simp only [makeDirectories, entered]
    refine ⟨last, rfl, fun shorter fewer => ?_⟩
    rcases Nat.lt_succ_iff_lt_or_eq.1 fewer with earlier | rfl
    · rw [others _ fun same => ?_, directories shorter earlier]
      have lengths := congrArg (fun path : Path => path.names.length) same
      simp only [List.length_take] at lengths
      omega
    · exact directory

theorem makeDirectory_ok (holds : store.CanHold path) :
    ∃ next, store.makeDirectory path.parent = (next, .ok ()) ∧
      ∀ upper ∈ path.ancestors, next.get? upper = some .directory := by
  obtain ⟨next, made, directories⟩ := makeDirectories_ok holds path.names.length (Nat.le_refl _)
  refine ⟨next, ?_, fun upper above => ?_⟩
  · rw [makeDirectory, Path.ancestors_parent (ne_root_of_get? holds.free)]
    exact made
  · obtain ⟨count, fewer, rfl⟩ := List.mem_map.1 above
    exact directories count (List.mem_range.1 fewer)

theorem readText_eq_ok {text : Text} (read : store.readText path = .ok text) :
    store.fault? path = none ∧ store.get? path = some (.file text) := by
  unfold readText at read
  split at read
  · cases read
  · cases read
  · cases read
  next found =>
    obtain rfl := Except.ok.inj read
    exact reach_eq_ok_iff.1 found

theorem writeText_ok (reachable : store.fault? path = none) (free : store.get? path ≠ some .directory) (text : Text) :
    store.writeText path text = .ok (store.put path (.file text)) := by
  unfold writeText
  cases found : store.get? path with
  | none => rw [reach_eq_ok_iff.2 ⟨reachable, found⟩]
  | some entry =>
    rw [reach_eq_ok_iff.2 ⟨reachable, found⟩]
    cases entry with
    | file text => rfl
    | directory => exact absurd found free

theorem rename_ok (target : Path) {text : Text} (reachable : store.fault? path = none)
    (found : store.get? path = some (.file text)) (open' : (store.erase path).fault? target = none)
    (free : (store.erase path).get? target ≠ some .directory) :
    store.rename path target = .ok ((store.erase path).put target (.file text)) := by
  have read : store.readText path = .ok text := by
    rw [readText, reach_eq_ok_iff.2 ⟨reachable, found⟩]
  rw [rename, read]
  exact writeText_ok open' free text

theorem writeText_eq_ok {text : Text} (wrote : store.writeText path text = .ok next) :
    path ≠ .root ∧ store.fault? path = none ∧ next = store.put path (.file text) := by
  unfold writeText at wrote
  split at wrote
  · cases wrote
  · cases wrote
  next entry notDirectory reached =>
    obtain ⟨reachable, found⟩ := reach_eq_ok_iff.1 reached
    exact ⟨ne_root_of_get? (by rwa [found]), reachable, (Except.ok.inj wrote).symm⟩

theorem rename_eq_ok {target : Path} (renamed : store.rename path target = .ok next) :
    ∃ text, store.get? path = some (.file text) ∧ (store.erase path).writeText target text = .ok next := by
  unfold rename at renamed
  split at renamed
  · cases renamed
  next text read => exact ⟨text, (readText_eq_ok read).2, renamed⟩

/-- A missing directory above a place counts as a removal too. -/
theorem remove_eq_ok (removed : store.remove path = .ok next) :
    (store.fault? path = some .missing ∧ next = store) ∨ (path ≠ .root ∧ next = store.erase path) := by
  unfold remove at removed
  split at removed
  next unreached =>
    refine .inl ⟨?_, (Except.ok.inj removed).symm⟩
    unfold reach at unreached
    split at unreached
    next fault found => rw [found, Except.error.inj unreached]
    · cases unreached
  · cases removed
  · cases removed
  next entry notDirectory reached =>
    have found := (reach_eq_ok_iff.1 reached).2
    exact .inr ⟨ne_root_of_get? (by rwa [found]), (Except.ok.inj removed).symm⟩

end Store

namespace Disk

/-- With no mishaps to come a request runs. -/
@[simp] theorem request_quiet {α : Type} (run : Store → Store × Except FileFault α) (fail : Store → Mishap → Store)
    (store : Store) : request run fail ⟨store, []⟩ = ((run store).2, ⟨(run store).1, []⟩) :=
  rfl

theorem kind?_apply (path : Path) (disk : Disk) :
    (FileSystem.kind? path : StateM Disk _) disk = (disk.store.kind? path.stored, disk) :=
  rfl

variable {α : Type} {disk after : Disk} {path source target : Path} {text : Text}

/-- What stands where a path leads. -/
def content? (disk : Disk) (path : Path) : Option Entry :=
  disk.store.get? path.stored

/-- A request is met by a mishap, or it runs. -/
theorem request_cases {run : Store → Store × Except FileFault α} {fail : Store → Mishap → Store}
    {outcome : Except FileFault α} (ran : request run fail disk = (outcome, after)) :
    (∃ mishap, outcome = .error mishap.fault ∧ after.store = fail disk.store mishap) ∨
      run disk.store = (after.store, outcome) := by
  unfold request at ran
  split at ran
  next mishap rest _ =>
    obtain ⟨rfl, rfl⟩ := Prod.mk.inj ran
    exact .inl ⟨mishap, rfl, rfl⟩
  · obtain ⟨rfl, rfl⟩ := Prod.mk.inj ran
    exact .inr rfl

/-- A change is made as a whole or not at all. -/
theorem change_cases {run : Store → Except FileFault Store} {outcome : Except FileFault Unit}
    (ran : request (change run) untouched disk = (outcome, after)) :
    (∃ fault, outcome = .error fault ∧ after.store = disk.store) ∨
      outcome = .ok () ∧ run disk.store = .ok after.store := by
  rcases request_cases ran with ⟨mishap, rfl, kept⟩ | changed
  · exact .inl ⟨_, rfl, kept⟩
  · unfold change at changed
    split at changed
    next made =>
      obtain ⟨rfl, rfl⟩ := Prod.mk.inj changed
      exact .inr ⟨rfl, made⟩
    · obtain ⟨kept, rfl⟩ := Prod.mk.inj changed
      exact .inl ⟨_, rfl, kept.symm⟩

theorem get?_makeDirectory {outcome : Except FileFault Unit}
    (ran : (FileSystem.makeDirectory path : StateM Disk _) disk = (outcome, after)) (place : Path) :
    after.store.get? place = disk.store.get? place ∨
      disk.store.get? place = none ∧ place ∈ path.stored.ancestors ++ [path.stored] ∧
        after.store.get? place = some .directory := by
  rcases request_cases ran with ⟨mishap, _, kept⟩ | made
  · exact .inl (by rw [kept, untouched])
  · have grown := disk.store.get?_makeDirectories (path.stored.ancestors ++ [path.stored]) place
    rwa [show (disk.store.makeDirectories (path.stored.ancestors ++ [path.stored])).1 = after.store from
      congrArg Prod.fst made] at grown

/-- Whatever a write comes to, the file has a text of its own or nothing is changed. -/
theorem writeText_cases {outcome : Except FileFault Unit}
    (ran : (FileSystem.writeText path text : StateM Disk _) disk = (outcome, after)) :
    (∃ fault, outcome = .error fault ∧ after.store = disk.store) ∨
      ∃ kept, disk.store.writeText path.stored kept = .ok after.store ∧ (outcome = .ok () → kept = text.stored) := by
  rcases request_cases ran with ⟨mishap, rfl, part⟩ | changed
  · unfold writePart at part
    split at part
    next wrote =>
      obtain ⟨kept, _, wrote⟩ := Option.map_eq_some_iff.1 wrote
      exact .inr ⟨kept, part ▸ wrote, nofun⟩
    · exact .inl ⟨_, rfl, part⟩
  · unfold change at changed
    split at changed
    next made =>
      obtain ⟨rfl, rfl⟩ := Prod.mk.inj changed
      exact .inr ⟨_, made, fun _ => rfl⟩
    · obtain ⟨kept, rfl⟩ := Prod.mk.inj changed
      exact .inl ⟨_, rfl, kept.symm⟩

theorem writeText_spec {outcome : Except FileFault Unit}
    (ran : (FileSystem.writeText path text : StateM Disk _) disk = (outcome, after)) :
    (∀ place ≠ path.stored, after.store.get? place = disk.store.get? place) ∧
    (after.content? path = disk.content? path ∨ after.store.fault? path.stored = none) ∧
    (outcome = .ok () → after.store.fault? path.stored = none ∧ after.content? path = some (.file text.stored)) := by
  rcases writeText_cases ran with ⟨fault, rfl, kept⟩ | ⟨kept, wrote, whole⟩
  · refine ⟨fun place _ => by rw [kept], .inl ?_, nofun⟩
    rw [content?, content?, kept]
  · obtain ⟨below, reachable, written⟩ := Store.writeText_eq_ok wrote
    rw [content?, content?, written, Store.fault?_put_self]
    refine ⟨fun place apart => Store.get?_put_of_ne _ apart, .inr reachable, fun done => ⟨reachable, ?_⟩⟩
    rw [Store.get?_put_self _ below, whole done]

/-- What is renamed leaves its place and takes the other one, whatever file is there. -/
theorem rename_spec {outcome : Except FileFault Unit} (apart : source.stored ≠ target.stored)
    (ran : (FileSystem.rename source target : StateM Disk _) disk = (outcome, after)) :
    (∃ fault, outcome = .error fault ∧ after.store = disk.store) ∨
      outcome = .ok () ∧ (∀ place, place ≠ source.stored → place ≠ target.stored →
        after.store.get? place = disk.store.get? place) ∧ after.content? source = none ∧
        ∃ kept, disk.content? source = some (.file kept) ∧ after.content? target = some (.file kept) := by
  rcases change_cases ran with failed | ⟨done, renamed⟩
  · exact .inl failed
  · obtain ⟨kept, found, wrote⟩ := Store.rename_eq_ok renamed
    obtain ⟨below, _, written⟩ := Store.writeText_eq_ok wrote
    have lower : source.stored ≠ .root := Store.ne_root_of_get? fun directory => nomatch found.symm.trans directory
    refine .inr ⟨done, fun place first second => ?_, ?_, kept, found, ?_⟩
    · rw [written, Store.get?_put_of_ne _ second, Store.get?_erase_of_ne first]
    · rw [content?, written, Store.get?_put_of_ne _ apart, Store.get?_erase_self lower]
    · rw [content?, written, Store.get?_put_self _ below]

theorem remove_spec {outcome : Except FileFault Unit}
    (ran : (FileSystem.remove path : StateM Disk _) disk = (outcome, after)) :
    (∀ place ≠ path.stored, after.store.get? place = disk.store.get? place) ∧
    ((∃ fault, outcome = .error fault) ∨
      outcome = .ok () ∧ (after.content? path = none ∨
        after.content? path = disk.content? path ∧ disk.store.fault? path.stored = some .missing)) := by
  rcases change_cases ran with ⟨fault, failed, kept⟩ | ⟨done, removed⟩
  · exact ⟨fun place _ => by rw [kept], .inl ⟨fault, failed⟩⟩
  · rcases Store.remove_eq_ok removed with ⟨missing, kept⟩ | ⟨below, erased⟩
    · refine ⟨fun place _ => by rw [kept], .inr ⟨done, .inr ⟨?_, missing⟩⟩⟩
      rw [content?, content?, kept]
    · refine ⟨fun place apart => by rw [erased, Store.get?_erase_of_ne apart], .inr ⟨done, .inl ?_⟩⟩
      rw [content?, erased, Store.get?_erase_self below]

end Disk

end BuildPipeline
