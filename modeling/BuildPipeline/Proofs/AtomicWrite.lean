import BuildPipeline.Files.Atomic
import BuildPipeline.Proofs.FileRequests

/-! A file is replaced as a whole or left as it was, whichever request fails. No other
file but the temporary one is touched on the way. -/

namespace BuildPipeline

namespace Path

theorem parent_stored (path : Path) : path.parent.stored = path.stored.parent := by
  simp [parent, stored, List.map_dropLast]

theorem length_names_temporary (target : Path) (tag : Text) :
    target.names.length ≤ (target.temporary tag).names.length := by
  simp only [temporary, child, parent, List.length_append, List.length_dropLast, List.length_singleton]
  omega

theorem temporary_notMem_ancestors (target : Path) (tag : Text) :
    (target.temporary tag).stored ∉ target.stored.ancestors := by
  intro above
  have shorter := length_names_of_mem_ancestors above
  simp only [stored, List.length_map] at shorter
  exact Nat.not_lt.2 (target.length_names_temporary tag) shorter

/-- The temporary file is beside its target. -/
theorem ancestors_temporary {target : Path} (below : target.stored ≠ .root) (tag : Text) :
    (target.temporary tag).stored.ancestors = target.stored.ancestors := by
  have beside : (target.temporary tag).stored.parent = target.stored.parent := by
    rw [← parent_stored, ← parent_stored]
    simp [temporary, child, parent]
  have lower : (target.temporary tag).stored ≠ .root := by
    simp [temporary, child, stored, root]
  rw [← ancestors_parent lower, ← ancestors_parent below, beside]

theorem name_stored (path : Path) : path.stored.name.length = path.name.length := by
  simp only [name, stored, List.getLast?_map]
  cases path.names.getLast? with
  | none => rfl
  | some last => simp [Text.length_stored]

/-- The last name of the temporary file is longer. -/
theorem temporary_stored_ne (target : Path) (tag : Text) : (target.temporary tag).stored ≠ target.stored := by
  intro same
  have lengths := congrArg (fun path : Path => path.name.length) same
  simp only [name_stored] at lengths
  simp only [temporary, child, name, List.getLast?_concat, Option.getD_some, List.length_append] at lengths
  have dots : (Text.ofString ".").length = 1 := by decide
  omega

end Path

/-- All places but the given ones stay as they were, except that directories above
`lower` are made where nothing was. -/
def Store.KeepsBut (before after : Store) (lower : Path) (places : List Path) : Prop :=
  ∀ place ∉ places, after.get? place = before.get? place ∨
    before.get? place = none ∧ place ∈ lower.ancestors ∧ after.get? place = some .directory

namespace Store.KeepsBut

variable {before middle after : Store} {lower : Path} {places : List Path}

theorem of_eq (same : ∀ place ∉ places, after.get? place = before.get? place) : before.KeepsBut after lower places :=
  fun place outside => .inl (same place outside)

theorem trans (first : before.KeepsBut middle lower places) (second : middle.KeepsBut after lower places) :
    before.KeepsBut after lower places := by
  intro place outside
  rcases second place outside with same | ⟨free, above, made⟩
  · rcases first place outside with earlier | ⟨none, above, directory⟩
    · exact .inl (same.trans earlier)
    · exact .inr ⟨none, above, same.trans directory⟩
  · rcases first place outside with earlier | ⟨none, _, directory⟩
    · exact .inr ⟨earlier.symm.trans free, above, made⟩
    · exact nomatch free.symm.trans directory

theorem weaken {more : List Path} (kept : before.KeepsBut after lower places) (fewer : places ⊆ more) :
    before.KeepsBut after lower more :=
  fun place outside => kept place fun listed => outside (fewer listed)

/-- What is not above `lower` is not made on the way. -/
theorem get?_eq {place : Path} (kept : before.KeepsBut after lower places) (outside : place ∉ places)
    (beside : place ∉ lower.ancestors) : after.get? place = before.get? place :=
  (kept place outside).resolve_right fun made => beside made.2.1

end Store.KeepsBut

theorem StateM.bind_apply {σ α β : Type} (first : StateM σ α) (next : α → StateM σ β) (state : σ) :
    (first >>= next) state = next (first state).1 (first state).2 :=
  rfl

namespace Disk

variable {disk after : Disk} {temporary target : Path} {text : Text}

theorem keepsBut_makeDirectory {outcome : Except FileFault Unit}
    (ran : (FileSystem.makeDirectory target.parent : StateM Disk _) disk = (outcome, after)) :
    disk.store.KeepsBut after.store target.stored [] := by
  intro place _
  rcases get?_makeDirectory ran place with same | ⟨none, above, made⟩
  · exact .inl same
  · rw [Path.parent_stored] at above
    by_cases below : target.stored = .root
    · have higher : place = .root := by simpa [below, Path.parent, Path.ancestors, Path.root] using above
      rw [higher, disk.store.get?_root] at none
      cases none
    · rw [Path.ancestors_parent below] at above
      exact .inr ⟨none, above, made⟩

/-- A replacement ends at the first of its three requests that fails. -/
theorem replaceText_cases {outcome : Except FileFault Unit}
    (ran : (replaceText temporary target text : StateM Disk _) disk = (outcome, after)) :
    (∃ fault, outcome = .error fault ∧
      (FileSystem.makeDirectory target.parent : StateM Disk _) disk = (.error fault, after)) ∨
    ∃ made, (FileSystem.makeDirectory target.parent : StateM Disk _) disk = (.ok (), made) ∧
      ((∃ fault, outcome = .error fault ∧
        (FileSystem.writeText temporary text : StateM Disk _) made = (.error fault, after)) ∨
      ∃ written, (FileSystem.writeText temporary text : StateM Disk _) made = (.ok (), written) ∧
        (FileSystem.rename temporary target : StateM Disk _) written = (outcome, after)) := by
  rw [replaceText, StateM.bind_apply] at ran
  cases first : (FileSystem.makeDirectory target.parent : StateM Disk _) disk with
  | mk outcome made =>
    rw [first] at ran
    cases outcome with
    | error fault =>
      obtain ⟨rfl, rfl⟩ := Prod.mk.inj ran
      exact .inl ⟨fault, rfl, rfl⟩
    | ok value =>
      refine .inr ⟨made, rfl, ?_⟩
      simp only [StateM.bind_apply] at ran
      cases second : (FileSystem.writeText temporary text : StateM Disk _) made with
      | mk outcome written =>
        rw [second] at ran
        cases outcome with
        | error fault =>
          obtain ⟨rfl, rfl⟩ := Prod.mk.inj ran
          exact .inl ⟨fault, rfl, rfl⟩
        | ok value => exact .inr ⟨written, rfl, ran⟩

/-- After a replacement the removal runs just when there was a fault. -/
theorem writeAtomic_cases {tag : Text} {outcome : Except PipelineError Path}
    (ran : (writeAtomic tag target text : StateM Disk _) disk = (outcome, after)) :
    (outcome = .ok target ∧ (replaceText (target.temporary tag) target text : StateM Disk _) disk = (.ok (), after)) ∨
    ∃ fault tried removal, (replaceText (target.temporary tag) target text : StateM Disk _) disk = (.error fault, tried) ∧
      (FileSystem.remove (target.temporary tag) : StateM Disk _) tried = (removal, after) ∧
      ∃ cause, outcome = .error (.outputWrite target.text cause) := by
  rw [writeAtomic, StateM.bind_apply] at ran
  cases replaced : (replaceText (target.temporary tag) target text : StateM Disk _) disk with
  | mk result tried =>
    rw [replaced] at ran
    cases result with
    | ok value =>
      obtain ⟨rfl, rfl⟩ := Prod.mk.inj ran
      exact .inl ⟨rfl, rfl⟩
    | error fault =>
      simp only [StateM.bind_apply] at ran
      cases removed : (FileSystem.remove (target.temporary tag) : StateM Disk _) tried with
      | mk removal last =>
        rw [removed] at ran
        refine .inr ⟨fault, tried, removal, rfl, ?_⟩
        cases removal with
        | ok value =>
          obtain ⟨rfl, rfl⟩ := Prod.mk.inj ran
          exact ⟨removed, _, rfl⟩
        | error later =>
          obtain ⟨rfl, rfl⟩ := Prod.mk.inj ran
          exact ⟨removed, _, rfl⟩

/-- Before anything is written nothing stands at the temporary place. -/
theorem content?_temporary_makeDirectory (tag : Text) {outcome : Except FileFault Unit}
    (ran : (FileSystem.makeDirectory target.parent : StateM Disk _) disk = (outcome, after)) :
    after.content? (target.temporary tag) = disk.content? (target.temporary tag) :=
  (keepsBut_makeDirectory ran).get?_eq List.not_mem_nil (target.temporary_notMem_ancestors tag)

/-- A replacement that fails changes nothing but the temporary file, which then stands
where it can be reached. -/
theorem replaceText_failed {tag : Text} {fault : FileFault}
    (ran : (replaceText (target.temporary tag) target text : StateM Disk _) disk = (.error fault, after)) :
    disk.store.KeepsBut after.store target.stored [(target.temporary tag).stored] ∧
      (after.content? (target.temporary tag) = disk.content? (target.temporary tag) ∨
        after.store.fault? (target.temporary tag).stored = none) := by
  rcases replaceText_cases ran with ⟨_, _, stopped⟩ | ⟨made, entered, rest⟩
  · exact ⟨(keepsBut_makeDirectory stopped).weaken (List.nil_subset _), .inl (content?_temporary_makeDirectory tag stopped)⟩
  · have entered' := (keepsBut_makeDirectory entered).weaken (List.nil_subset [(target.temporary tag).stored])
    have fresh := content?_temporary_makeDirectory tag entered
    rcases rest with ⟨_, _, stopped⟩ | ⟨written, wrote, renamed⟩
    · obtain ⟨others, reachable, _⟩ := writeText_spec stopped
      refine ⟨entered'.trans (.of_eq fun place outside => others place (by simpa using outside)), ?_⟩
      rwa [fresh] at reachable
    · obtain ⟨others, reachable, _⟩ := writeText_spec wrote
      rcases rename_spec (target.temporary_stored_ne tag) renamed with ⟨_, _, kept⟩ | ⟨done, _⟩
      · rw [content?, kept, ← content?]
        refine ⟨entered'.trans (.of_eq fun place outside => others place (by simpa using outside)), ?_⟩
        rwa [fresh] at reachable
      · cases done

/-- The text is at the target, byte for byte, and nothing is left at the temporary place. -/
structure Replaced (after : Disk) (temporary target : Path) (text : Text) : Prop where
  bytes : ∃ kept, after.content? target = some (.file kept) ∧ kept.utf8 = text.utf8 ∧
    (text.hasUnpaired = false → kept = text)
  clean : after.content? temporary = none

theorem replaceText_done {tag : Text}
    (ran : (replaceText (target.temporary tag) target text : StateM Disk _) disk = (.ok (), after)) :
    disk.store.KeepsBut after.store target.stored [(target.temporary tag).stored, target.stored] ∧
      after.Replaced (target.temporary tag) target text := by
  rcases replaceText_cases ran with ⟨_, failed, _⟩ | ⟨made, entered, ⟨_, failed, _⟩ | ⟨written, wrote, renamed⟩⟩
  · cases failed
  · cases failed
  · obtain ⟨others, _, whole⟩ := writeText_spec wrote
    rcases rename_spec (target.temporary_stored_ne tag) renamed with ⟨_, failed, _⟩ | ⟨_, same, gone, kept, found, placed⟩
    · cases failed
    · obtain rfl : text.stored = kept := by simpa using (whole rfl).2.symm.trans found
      refine ⟨?_, ⟨_, placed, text.utf8_stored, Text.stored_of_hasUnpaired_eq_false⟩, gone⟩
      refine ((keepsBut_makeDirectory entered).weaken (List.nil_subset _)).trans (.of_eq fun place outside => ?_)
      simp only [List.mem_cons, List.not_mem_nil, or_false, not_or] at outside
      rw [same place outside.1 outside.2, others place outside.1]

/-- The removal of the temporary file, after a replacement that failed, fails too. -/
def RemovalFails (before after : Disk) (temporary target : Path) (text : Text) : Prop :=
  ∃ fault tried later, (replaceText temporary target text : StateM Disk _) before = (.error fault, tried) ∧
    (FileSystem.remove temporary : StateM Disk _) tried = (.error later, after)

/-- The target is as it was, and the temporary file is left only if it cannot be removed. -/
structure Spared (before after : Disk) (temporary target : Path) (text : Text) : Prop where
  same : after.content? target = before.content? target
  clean : before.content? temporary = none →
    after.content? temporary = none ∨ before.RemovalFails after temporary target text

/-- A write replaces the target or spares it, and either way changes nothing else. -/
theorem writeAtomic_spec {tag : Text} {outcome : Except PipelineError Path}
    (ran : (writeAtomic tag target text : StateM Disk _) disk = (outcome, after)) :
    disk.store.KeepsBut after.store target.stored [(target.temporary tag).stored, target.stored] ∧
      (outcome = .ok target ∧ after.Replaced (target.temporary tag) target text ∨
        (∃ cause, outcome = .error (.outputWrite target.text cause)) ∧
          disk.Spared after (target.temporary tag) target text) := by
  rcases writeAtomic_cases ran with ⟨done, replaced⟩ | ⟨fault, tried, removal, failed, removed, cause⟩
  · obtain ⟨kept, replaced⟩ := replaceText_done replaced
    exact ⟨kept, .inl ⟨done, replaced⟩⟩
  · obtain ⟨kept, reachable⟩ := replaceText_failed failed
    obtain ⟨others, removal⟩ := remove_spec removed
    have spared : disk.store.KeepsBut after.store target.stored [(target.temporary tag).stored] :=
      kept.trans (.of_eq fun place outside => others place (by simpa using outside))
    have apart : target.stored ∉ [(target.temporary tag).stored] := by
      simpa using (target.temporary_stored_ne tag).symm
    refine ⟨spared.weaken (by simp), .inr ⟨cause, spared.get?_eq apart target.stored.notMem_ancestors, fun fresh => ?_⟩⟩
    rcases removal with ⟨later, rfl⟩ | ⟨_, gone | ⟨left, missing⟩⟩
    · exact .inr ⟨fault, tried, later, failed, removed⟩
    · exact .inl gone
    · rcases reachable with same | reached
      · exact .inl (left.trans (same.trans fresh))
      · exact nomatch missing.symm.trans reached

/-- On a disk that fails nothing the text is written wherever a file may be put. -/
theorem writeAtomic_ok {store : Store} {tag : Text} (holds : store.CanHold target.stored)
    (beside : store.CanHold (target.temporary tag).stored) (text : Text) :
    ∃ next, (writeAtomic tag target text : StateM Disk _) ⟨store, []⟩ = (.ok target, ⟨next, []⟩) := by
  have above := Path.ancestors_temporary (Store.ne_root_of_get? holds.free) tag
  have apart := target.temporary_stored_ne tag
  obtain ⟨made, entered, directories⟩ := Store.makeDirectory_ok holds
  have entered' : (FileSystem.makeDirectory target.parent : StateM Disk _) ⟨store, []⟩ = (.ok (), ⟨made, []⟩) := by
    simp only [FileSystem.makeDirectory, request_quiet, Path.parent_stored, entered]
  have grown := keepsBut_makeDirectory entered'
  have reachable : made.fault? (target.temporary tag).stored = none :=
    Store.fault?_eq_none_iff.2 ⟨beside.named, fun upper higher => directories upper (above ▸ higher)⟩
  have free : made.get? (target.temporary tag).stored ≠ some .directory := by
    rw [grown.get?_eq List.not_mem_nil (target.temporary_notMem_ancestors tag)]
    exact beside.free
  have wrote := Store.writeText_ok reachable free text.stored
  have renamed := Store.rename_ok target.stored
    ((made.fault?_put_self (target.temporary tag).stored (.file text.stored)).trans reachable)
    (Store.get?_put_self _ (Store.ne_root_of_get? beside.free))
    (Store.fault?_eq_none_iff.2 ⟨holds.named, fun upper higher => ?_⟩) ?_
  · have wrote' : (FileSystem.writeText (target.temporary tag) text : StateM Disk _) ⟨made, []⟩ =
        (.ok (), ⟨made.put (target.temporary tag).stored (.file text.stored), []⟩) := by
      simp only [FileSystem.writeText, request_quiet, change, wrote]
    refine ⟨((made.put (target.temporary tag).stored (.file text.stored)).erase (target.temporary tag).stored).put
      target.stored (.file text.stored), ?_⟩
    simp only [writeAtomic, replaceText, StateM.bind_apply, entered', wrote', FileSystem.rename, request_quiet, change,
      renamed]
    rfl
  · have lower : upper ≠ (target.temporary tag).stored := by
      rintro rfl
      exact target.temporary_notMem_ancestors tag higher
    rw [Store.get?_erase_of_ne lower, Store.get?_put_of_ne _ lower, directories upper higher]
  · rw [Store.get?_erase_of_ne apart.symm, Store.get?_put_of_ne _ apart.symm,
      grown.get?_eq List.not_mem_nil target.stored.notMem_ancestors]
    exact holds.free

end Disk

end BuildPipeline
