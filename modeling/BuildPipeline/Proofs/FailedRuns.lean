import BuildPipeline.Command.Generate
import BuildPipeline.Proofs.AtomicWrite

/-! A run that fails leaves its output path as it was. Up to the write it has only read
files, and a write that fails spares its target. -/

namespace BuildPipeline

namespace Disk

/-- Leaves the store as it is. -/
def Reads {α : Type} (request : StateM Disk α) : Prop :=
  ∀ disk, (request disk).2.store = disk.store

namespace Reads

variable {α β : Type}

theorem pure (value : α) : Reads (Pure.pure value : StateM Disk α) := fun _ => rfl

theorem bind {first : StateM Disk α} {next : α → StateM Disk β} (head : Reads first)
    (tail : ∀ value, Reads (next value)) : Reads (first >>= next) := by
  intro disk
  rw [StateM.bind_apply, tail, head]

theorem kind? (path : Path) : Reads (FileSystem.kind? path : StateM Disk _) := fun _ => rfl

theorem readText (path : Path) : Reads (FileSystem.readText path : StateM Disk _) := by
  intro disk
  cases ran : (FileSystem.readText path : StateM Disk _) disk with
  | mk outcome after =>
    rcases request_cases ran with ⟨_, _, kept⟩ | read
    · exact kept
    · exact (congrArg Prod.fst read).symm

theorem readHashList (path : Path) : Reads (BuildPipeline.readHashList path : StateM Disk _) := by
  refine (readText path).bind fun read => ?_
  cases read with
  | ok text => exact pure _
  | error fault => exact pure _

theorem readSignalFile (directory : Path) (flag : Option Text) :
    Reads (BuildPipeline.readSignalFile directory flag : StateM Disk _) := by
  unfold BuildPipeline.readSignalFile
  cases flag with
  | none => exact pure _
  | some name =>
    dsimp only
    split
    · exact pure _
    · exact (readHashList _).bind fun _ => pure _

theorem readManifest (location : Path) : Reads (BuildPipeline.readManifest location : StateM Disk _) := by
  have located : Reads (locateManifest location : StateM Disk _) := by
    refine (kind? location).bind fun kind => ?_
    split
    · exact pure _
    · exact pure _
  refine located.bind fun path => (kind? path).bind fun kind => ?_
  split
  · exact pure _
  · refine (readText path).bind fun read => ?_
    cases read with
    | ok text => exact pure _
    | error fault => exact pure _

theorem readInputs (directory : Path) (flags : RunFlags) :
    Reads (BuildPipeline.readInputs directory flags : StateM Disk _) :=
  (readManifest _).bind fun _ => (readSignalFile directory _).bind fun _ => (readSignalFile directory _).bind fun _ =>
    pure _

end Reads

variable {disk after : Disk} {registry : Registry} {surroundings : Surroundings} {flags : RunFlags} {tag : Text}

/-- What is rendered is written, and the run ends with what fails first or with its counts. -/
theorem generateRun_cases {prepared : PreparedPipeline} {directory : Path} {run : CommandRun Generated}
    (ran : (prepared.generateRun directory tag : StateM Disk _) disk = (run, after)) :
    (∃ error, prepared.render = .error error ∧ run.outcome = .error (.pipeline error) ∧ after = disk) ∨
      ∃ text outcome, prepared.render = .ok text ∧
        (writeAtomic tag prepared.target text : StateM Disk _) disk = (outcome, after) ∧
        ((∃ error, outcome = .error error ∧ run.outcome = .error (.pipeline error)) ∨
          ∃ place, outcome = .ok place ∧ run.outcome = .ok prepared.generated) := by
  unfold PreparedPipeline.generateRun at ran
  cases rendered : prepared.render with
  | error error =>
    rw [rendered] at ran
    obtain ⟨rfl, rfl⟩ := Prod.mk.inj ran
    exact .inl ⟨error, rfl, rfl, rfl⟩
  | ok text =>
    rw [rendered] at ran
    simp only [StateM.bind_apply] at ran
    cases written : (writeAtomic tag prepared.target text : StateM Disk _) disk with
    | mk outcome last =>
      rw [written] at ran
      cases outcome with
      | error error =>
        obtain ⟨rfl, rfl⟩ := Prod.mk.inj ran
        exact .inr ⟨text, _, rfl, written, .inl ⟨error, rfl, rfl⟩⟩
      | ok place =>
        obtain ⟨rfl, rfl⟩ := Prod.mk.inj ran
        exact .inr ⟨text, _, rfl, written, .inr ⟨place, rfl, rfl⟩⟩

theorem generateRun_failed {prepared : PreparedPipeline} {directory : Path} {run : CommandRun Generated}
    {failure : Failure} (ran : (prepared.generateRun directory tag : StateM Disk _) disk = (run, after))
    (failed : run.outcome = .error failure) :
    after = disk ∨ ∃ text error, prepared.render = .ok text ∧
      (writeAtomic tag prepared.target text : StateM Disk _) disk = (.error error, after) := by
  rcases generateRun_cases ran with
    ⟨_, _, _, same⟩ | ⟨text, outcome, rendered, written, ⟨error, rfl, _⟩ | ⟨_, _, done⟩⟩
  · exact .inl same
  · exact .inr ⟨text, error, rendered, written⟩
  · exact nomatch failed.symm.trans done

/-- A run that fails has written nothing, or could not write what it had rendered. -/
theorem runGenerate_failed {run : CommandRun Generated} {failure : Failure}
    (ran : (runGenerate registry surroundings flags tag : StateM Disk _) disk = (run, after))
    (failed : run.outcome = .error failure) :
    ∃ inputs ready, (readInputs surroundings.directory flags : StateM Disk _) disk = (inputs, ready) ∧
      ready.store = disk.store ∧ (after.store = disk.store ∨ ∃ prepared text error,
        (prepare registry surroundings flags inputs).outcome = .ok prepared ∧ prepared.render = .ok text ∧
        (writeAtomic tag prepared.target text : StateM Disk _) ready = (.error error, after)) := by
  rw [runGenerate, StateM.bind_apply] at ran
  cases read : (readInputs surroundings.directory flags : StateM Disk _) disk with
  | mk inputs ready =>
    have kept := Reads.readInputs surroundings.directory flags disk
    rw [read] at kept ran
    dsimp only at kept ran
    refine ⟨inputs, ready, rfl, kept, ?_⟩
    cases made : (prepare registry surroundings flags inputs).outcome with
    | error failure =>
      rw [made] at ran
      obtain ⟨_, rfl⟩ := Prod.mk.inj ran
      exact .inl kept
    | ok prepared =>
      simp only [made, StateM.bind_apply] at ran
      cases finished : (prepared.generateRun surroundings.directory tag : StateM Disk _) ready with
      | mk result last =>
        rw [finished] at ran
        obtain ⟨rfl, rfl⟩ := Prod.mk.inj ran
        rcases generateRun_failed finished failed with rfl | ⟨text, error, rendered, written⟩
        · exact .inl kept
        · exact .inr ⟨prepared, text, error, rfl, rendered, written⟩

/-- A write replaces its target as a whole, or fails and spares it, and touches no other
file; it fails only by a mishap or where no file may be put. So a run that fails, at
whatever stage, leaves its output path as it was: it has written nothing, or the write of
what it rendered has failed. -/
theorem failed_runs_spare_output (disk : Disk) (tag : Text) :
    (∀ target text outcome after, (writeAtomic tag target text : StateM Disk _) disk = (outcome, after) →
      disk.store.KeepsBut after.store target.stored [(target.temporary tag).stored, target.stored] ∧
      (outcome = .ok target ∧ after.Replaced (target.temporary tag) target text ∨
        (∃ cause, outcome = .error (.outputWrite target.text cause)) ∧
          disk.Spared after (target.temporary tag) target text) ∧
      (disk.mishaps = [] → disk.store.CanHold target.stored → disk.store.CanHold (target.temporary tag).stored →
        outcome = .ok target)) ∧
    ∀ registry surroundings flags run after failure,
      (runGenerate registry surroundings flags tag : StateM Disk _) disk = (run, after) →
      run.outcome = .error failure →
      after.store = disk.store ∨ ∃ inputs ready prepared text,
        (readInputs surroundings.directory flags : StateM Disk _) disk = (inputs, ready) ∧
        (prepare registry surroundings flags inputs).outcome = .ok prepared ∧ prepared.render = .ok text ∧
        after.content? prepared.target = disk.content? prepared.target ∧
        disk.store.KeepsBut after.store prepared.target.stored [(prepared.target.temporary tag).stored] ∧
        ready.store = disk.store ∧ ready.Spared after (prepared.target.temporary tag) prepared.target text := by
  refine ⟨fun target text outcome after ran => ?_, ?_⟩
  · obtain ⟨others, done⟩ := writeAtomic_spec ran
    refine ⟨others, done, fun quiet holds beside => ?_⟩
    obtain ⟨store, mishaps⟩ := disk
    obtain rfl : mishaps = [] := quiet
    obtain ⟨_, wrote⟩ := writeAtomic_ok holds beside text
    exact congrArg Prod.fst (ran.symm.trans wrote)
  intro registry surroundings flags run after failure ran failed
  obtain ⟨inputs, ready, read, kept, untouched | ⟨prepared, text, error, made, rendered, written⟩⟩ :=
    runGenerate_failed ran failed
  · exact .inl untouched
  · obtain ⟨others, ⟨done, _⟩ | ⟨_, spared⟩⟩ := writeAtomic_spec written
    · cases done
    · have same : after.content? prepared.target = disk.content? prepared.target := by
        rw [spared.same, content?, content?, kept]
      refine .inr ⟨inputs, ready, prepared, text, read, made, rendered, same, fun place outside => ?_, kept, spared⟩
      by_cases target : place = prepared.target.stored
      · rw [target]
        exact .inl same
      · rw [kept] at others
        exact others place (by simpa [target] using outside)

namespace CutShort

/-- The write of the second request stops after two units. -/
def full : Disk where
  store := ⟨[(⟨["w"]⟩, .directory), (⟨["w", "out"]⟩, .file "old")]⟩
  mishaps := [none, some ⟨.other "disk full", some "ne"⟩]

def out : Path := ⟨["w", "out"]⟩

def here : Surroundings := ⟨⟨["w"]⟩, []⟩

def wrote : Except PipelineError Path × Disk :=
  (writeAtomic "t" out "new" : StateM Disk _) full

/-- There is no manifest. -/
def ran : CommandRun Generated × Disk :=
  (runGenerate .builtin here {} "t" : StateM Disk _) full

/-- What has replaced nothing, before the temporary file is removed. -/
def tried : Except FileFault Unit × Disk :=
  (replaceText (out.temporary "t") out "new" : StateM Disk _) full

theorem not_removalFails : ¬ full.RemovalFails wrote.2 (out.temporary "t") out "new" := by
  rintro ⟨fault, left, later, failed, removal⟩
  obtain rfl : left = tried.2 := congrArg Prod.snd failed.symm
  have removed : ((FileSystem.remove (out.temporary "t") : StateM Disk _) tried.2).1 = .ok () := by decide +kernel
  exact nomatch (congrArg Prod.fst removal).symm.trans removed

def read : RunInputs × Disk :=
  (readInputs here.directory {} : StateM Disk _) full

theorem unprepared : (prepare .builtin here {} read.1).outcome.toOption.isNone = true := by
  decide +kernel

end CutShort

open CutShort in
theorem failed_runs_spare_output_cutShort :
    wrote.1.toOption = none ∧ wrote.2.content? out = some (.file "old") ∧ wrote.2.content? (out.temporary "t") = none ∧
    (∃ failure, ran.1.outcome = .error failure) ∧ ran.2.content? out = some (.file "old") := by
  obtain ⟨writes, runs⟩ := failed_runs_spare_output full "t"
  have old : full.content? out = some (.file "old") := by decide
  have failed : wrote.1.toOption = none := by decide +kernel
  obtain ⟨_, ⟨done, _⟩ | ⟨_, spared⟩, _⟩ := writes out "new" wrote.1 wrote.2 rfl
  · rw [done] at failed
    cases failed
  · refine ⟨failed, spared.same.trans old, (spared.clean (by decide)).resolve_right not_removalFails, ?_⟩
    have stopped : ran.1.outcome.toOption.isNone = true := by decide +kernel
    cases ended : ran.1.outcome with
    | ok generated =>
      rw [ended] at stopped
      cases stopped
    | error failure =>
      refine ⟨⟨failure, rfl⟩, ?_⟩
      rcases runs .builtin here {} ran.1 ran.2 failure rfl ended with kept | ⟨inputs, _, _, _, given, made, _⟩
      · rw [content?, kept]
        exact old
      · obtain rfl : inputs = read.1 := congrArg Prod.fst given.symm
        have prepared := unprepared
        rw [made] at prepared
        cases prepared

end Disk

end BuildPipeline
