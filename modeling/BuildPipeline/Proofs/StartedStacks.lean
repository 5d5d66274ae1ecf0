import BuildPipeline.Command.Verify
import BuildPipeline.Proofs.AtomicWrite
import BuildPipeline.Proofs.StackNames
import BuildPipeline.Proofs.StarterStack

/-! Stacks as they are started. A manifest that was just written verifies and generates,
unless the stack was explicitly given an empty name. -/

namespace BuildPipeline

/-- A document is found again in the file that it is written to. -/
def Document.ReadsBack (document : Document) : Prop :=
  Yaml.readYaml document.renderFolded.stored = .ok document.value

namespace Disk

variable {store : Store} {directory : Path} {text : Text}

theorem ancestors_child (directory : Path) (name : Text) :
    (directory.child name).stored.ancestors = directory.stored.ancestors ++ [directory.stored] := by
  have above : (directory.child name).stored.parent = directory.stored := by
    rw [← Path.parent_stored]
    simp [Path.child, Path.parent]
  rw [← Path.ancestors_parent (by simp [Path.child, Path.stored, Path.root]), above]

/-- A file that can be reached stands in a directory that can be reached. -/
theorem kind?_directory {name : Text} (reachable : store.fault? (directory.child name).stored = none) :
    store.kind? directory.stored = some .directory := by
  obtain ⟨named, directories⟩ := Store.fault?_eq_none_iff.1 reachable
  rw [ancestors_child, List.forall_mem_append] at directories
  have open' : store.fault? directory.stored = none := by
    refine Store.fault?_eq_none_iff.2 ⟨fun part listed => named part ?_, directories.1⟩
    simp only [Path.stored, Path.child, List.map_append, List.mem_append] at listed ⊢
    exact .inl listed
  rw [Store.kind?, Store.reach_eq_ok_iff.2 ⟨open', directories.2 _ List.mem_cons_self⟩]
  rfl

theorem readManifest_of_file (reachable : store.fault? (directory.child manifestFile).stored = none)
    (found : store.get? (directory.child manifestFile).stored = some (.file text)) :
    (readManifest directory : StateM Disk _) ⟨store, []⟩ = (.ofText text, ⟨store, []⟩) := by
  have reached := Store.reach_eq_ok_iff.2 ⟨reachable, found⟩
  have there : store.kind? (directory.child manifestFile).stored = some .file := by
    rw [Store.kind?, reached]
    rfl
  have read : store.readText (directory.child manifestFile).stored = .ok text := by
    rw [Store.readText, reached]
  have located : (locateManifest directory : StateM Disk _) ⟨store, []⟩ =
      (directory.child manifestFile, ⟨store, []⟩) := by
    simp only [locateManifest, StateM.bind_apply, kind?_apply, kind?_directory reachable, if_true]
    rfl
  simp only [readManifest, StateM.bind_apply, located, kind?_apply, FileSystem.readText, there, Option.isNone_some,
    Bool.false_eq_true, if_false, request_quiet, read]
  rfl

/-- A run that ends well has written the starter manifest where it can be reached. -/
theorem runInit_eq_ok {registry : Registry} {flags : InitFlags} {disk after : Disk} {run : CommandRun Text} {name : Text}
    (ran : (runInit registry directory flags : StateM Disk _) disk = (run, after)) (done : run.outcome = .ok name) :
    name = flags.name.getD (sanitizeStackName directory.name) ∧
    (∃ generator, registry.resolve (flags.platform.getD defaultPlatform) = .ok generator) ∧
    after.store.fault? (directory.child manifestFile).stored = none ∧
    after.content? (directory.child manifestFile) =
      some (.file (starterManifest name (flags.platform.getD defaultPlatform)).renderFolded.stored) := by
  rw [runInit, StateM.bind_apply, kind?_apply] at ran
  split at ran
  · obtain ⟨rfl, _⟩ := Prod.mk.inj ran
    cases done
  · cases resolved : registry.resolve (flags.platform.getD defaultPlatform) with
    | error error =>
      simp only [resolved] at ran
      obtain ⟨rfl, _⟩ := Prod.mk.inj ran
      cases done
    | ok generator =>
      simp only [resolved, StateM.bind_apply] at ran
      cases wrote : (FileSystem.writeText (directory.child manifestFile)
          (starterManifest (flags.name.getD (sanitizeStackName directory.name))
            (flags.platform.getD defaultPlatform)).renderFolded : StateM Disk _) disk with
      | mk outcome last =>
        rw [wrote] at ran
        cases outcome with
        | error fault =>
          obtain ⟨rfl, _⟩ := Prod.mk.inj ran
          cases done
        | ok value =>
          obtain ⟨rfl, rfl⟩ := Prod.mk.inj ran
          obtain rfl := Except.ok.inj done
          exact ⟨rfl, ⟨generator, rfl⟩, (writeText_spec wrote).2.2 rfl⟩

/-- What a run without flags reads in a directory with nothing but a manifest. -/
theorem readInputs_of_file (reachable : store.fault? (directory.child manifestFile).stored = none)
    (found : store.get? (directory.child manifestFile).stored = some (.file text)) :
    (readInputs directory {} : StateM Disk _) ⟨store, []⟩ = ({ manifest := .ofText text }, ⟨store, []⟩) := by
  have here : directory.resolve "." = directory := rfl
  simp only [readInputs, readSignalFile, StateM.bind_apply, Option.getD_none, here,
    readManifest_of_file reachable found]
  rfl

theorem ofText_starter {name platform : Text} (readsBack : (starterManifest name platform).ReadsBack) :
    ManifestSource.ofText (starterManifest name platform).renderFolded.stored = .holds (Starter.value name platform) := by
  rw [ManifestSource.ofText, readsBack, Starter.value_starterManifest]

theorem runGenerate_starter {name platform tag : Text} {environment : Environment} {generator : Generator}
    (reachable : store.fault? (directory.child manifestFile).stored = none)
    (found : store.get? (directory.child manifestFile).stored =
      some (.file (starterManifest name platform).renderFolded.stored))
    (readsBack : (starterManifest name platform).ReadsBack) (filled : name ≠ [])
    (resolved : Registry.builtin.resolve platform = .ok generator)
    (holds : store.CanHold (directory.resolve generator.defaultOutputPath).stored)
    (beside : store.CanHold ((directory.resolve generator.defaultOutputPath).temporary tag).stored) :
    ∃ generated, ((runGenerate .builtin ⟨directory, environment⟩ {} tag : StateM Disk _) ⟨store, []⟩).1.outcome =
      .ok generated ∧ generated.jobs = 2 := by
  have read := readInputs_of_file reachable found
  obtain ⟨prepared, made, target, jobs, text, rendered⟩ :=
    Starter.prepare_value filled resolved ⟨directory, environment⟩
  dsimp only at target
  obtain ⟨last, wrote⟩ := writeAtomic_ok (target ▸ holds) (target ▸ beside) text
  rw [ofText_starter readsBack] at read
  have ran : (prepared.generateRun directory tag : StateM Disk _) ⟨store, []⟩ =
      (⟨[], prepared.summaryLines ++ [prepared.successLine directory], .ok prepared.generated⟩, ⟨last, []⟩) := by
    simp only [PreparedPipeline.generateRun, rendered, StateM.bind_apply, wrote]
    rfl
  refine ⟨prepared.generated, ?_, jobs⟩
  simp only [runGenerate, StateM.bind_apply, read, made, ran]
  rfl

theorem verifyManifest_of_file {name platform : Text}
    (reachable : store.fault? (directory.child manifestFile).stored = none)
    (found : store.get? (directory.child manifestFile).stored =
      some (.file (starterManifest name platform).renderFolded.stored))
    (readsBack : (starterManifest name platform).ReadsBack) :
    (verifyManifest directory : StateM Disk _) ⟨store, []⟩ = ((Starter.value name platform).verify, ⟨store, []⟩) := by
  simp only [verifyManifest, StateM.bind_apply, readManifest_of_file reachable found, ofText_starter readsBack]
  rfl

/-- A stack has the name it is given, or one made from its directory's that is kept when
it is made again. Its manifest passes with two builds and nothing to report, and is
generated wherever the output can be put, just when that name is not empty: an empty
one is written down too, and then refused. -/
theorem started_stack_verifies (directory : Path) (flags : InitFlags) {disk after : Disk} {run : CommandRun Text}
    {name : Text} (ran : (runInit .builtin directory flags : StateM Disk _) disk = (run, after))
    (done : run.outcome = .ok name)
    (readsBack : (starterManifest name (flags.platform.getD defaultPlatform)).ReadsBack) :
    (∀ text, IsStackName (sanitizeStackName text) ∧ sanitizeStackName (sanitizeStackName text) = sanitizeStackName text) ∧
    name = flags.name.getD (sanitizeStackName directory.name) ∧
    ∃ verification, (verifyManifest directory : StateM Disk _) ⟨after.store, []⟩ = (verification, ⟨after.store, []⟩) ∧
      (flags.name = some [] → verification.issues = [.malformed ⟨[.key "name"], .emptyText⟩]) ∧
      (flags.name ≠ some [] → verification.passed = true ∧ verification.issues = [] ∧ verification.specCount = some 2 ∧
        ∀ environment tag generator,
          Registry.builtin.resolve (flags.platform.getD defaultPlatform) = .ok generator →
          after.store.CanHold (directory.resolve generator.defaultOutputPath).stored →
          after.store.CanHold ((directory.resolve generator.defaultOutputPath).temporary tag).stored →
          ∃ generated, ((runGenerate .builtin ⟨directory, environment⟩ {} tag : StateM Disk _) ⟨after.store, []⟩).1.outcome =
            .ok generated ∧ generated.jobs = 2) := by
  obtain ⟨given, ⟨generator, resolved⟩, reachable, found⟩ := runInit_eq_ok ran done
  have named := isStackName_sanitizeStackName
  have platform := (Starter.resolve_builtin resolved).1
  refine ⟨fun text => ⟨named text, sanitizeStackName_of_isStackName (named text)⟩, given, _,
    verifyManifest_of_file reachable found readsBack, fun empty => ?_, fun chosen => ?_⟩
  · obtain rfl : name = [] := given.trans (by rw [empty]; rfl)
    exact Starter.issues_unnamed platform
  · have filled : name ≠ [] := by
      rw [given]
      cases asked : flags.name with
      | none => exact (named directory.name).filled
      | some text => exact fun empty => chosen (asked.trans (congrArg some empty))
    obtain ⟨issues, count⟩ := Starter.verify_value filled platform
    refine ⟨?_, issues, count, fun environment tag generator resolved holds beside => ?_⟩
    · rw [Verification.passed, issues]
      rfl
    · exact runGenerate_starter reachable found readsBack filled resolved holds beside

end Disk

namespace Value

mutual

/-- Equality of values, for evaluation. -/
def same : Value → Value → Bool
  | .null, .null => true
  | .boolean left, .boolean right => left == right
  | .number left, .number right => decide (left = right)
  | .text left, .text right => decide (left = right)
  | .list left, .list right => sameItems left right
  | .mapping left, .mapping right => sameMembers left right
  | _, _ => false

def sameItems : List Value → List Value → Bool
  | [], [] => true
  | left :: lefts, right :: rights => left.same right && sameItems lefts rights
  | _, _ => false

def sameMembers : List (Text × Value) → List (Text × Value) → Bool
  | [], [] => true
  | (key, left) :: lefts, (other, right) :: rights =>
    decide (key = other) && left.same right && sameMembers lefts rights
  | _, _ => false

end

mutual

theorem eq_of_same : ∀ left right : Value, left.same right = true → left = right
  | .null, .null, _ => rfl
  | .boolean left, .boolean right, agree => by simpa [same] using agree
  | .number left, .number right, agree => by simpa [same] using agree
  | .text left, .text right, agree => by simpa [same] using agree
  | .list left, .list right, agree => congrArg Value.list (eq_of_sameItems left right agree)
  | .mapping left, .mapping right, agree => congrArg Value.mapping (eq_of_sameMembers left right agree)

theorem eq_of_sameItems : ∀ left right : List Value, sameItems left right = true → left = right
  | [], [], _ => rfl
  | left :: lefts, right :: rights, agree => by
    simp only [sameItems, Bool.and_eq_true] at agree
    rw [eq_of_same left right agree.1, eq_of_sameItems lefts rights agree.2]

theorem eq_of_sameMembers : ∀ left right : List (Text × Value), sameMembers left right = true → left = right
  | [], [], _ => rfl
  | (key, left) :: lefts, (other, right) :: rights, agree => by
    simp only [sameMembers, Bool.and_eq_true, decide_eq_true_eq] at agree
    rw [agree.1.1, eq_of_same left right agree.1.2, eq_of_sameMembers lefts rights agree.2]

end

end Value

namespace FreshDirectory

def directory : Path := ⟨["w"]⟩

def disk : Disk := { store := ⟨[(directory, .directory)]⟩ }

def started (name : Option Text) : CommandRun Text × Disk :=
  (runInit .builtin directory { name } : StateM Disk _) disk

theorem ran (given : Option Text) : (runInit .builtin directory { name := given } : StateM Disk _) disk =
    ((started given).1, (started given).2) :=
  rfl

/-- The run ends with this name, and its manifest reads back. -/
def Starts (given : Option Text) (name : Text) : Prop :=
  (started given).1.outcome = .ok name ∧ (starterManifest name "gitlab").ReadsBack

theorem starts_of_evaluated {given : Option Text} {name : Text}
    (ended : (started given).1.outcome.toOption.any (fun found => decide (found = name)) = true)
    (read : (Yaml.readYaml (starterManifest name "gitlab").renderFolded.stored).toOption.any
      (·.same (Starter.value name "gitlab")) = true) : Starts given name := by
  obtain ⟨found, done, named⟩ := exists_ok_of_any ended
  obtain ⟨value, made, same⟩ := exists_ok_of_any read
  refine ⟨by rw [done, of_decide_eq_true named], ?_⟩
  rw [Document.ReadsBack, Starter.value_starterManifest, made, Value.eq_of_same _ _ same]

theorem starts_default : Starts none "w" :=
  starts_of_evaluated (by decide +kernel) (by decide +kernel)

theorem starts_unnamed : Starts (some []) [] :=
  starts_of_evaluated (by decide +kernel) (by decide +kernel)

def output : Path := directory.resolve Generator.gitlab.defaultOutputPath

theorem canHold_output : (started none).2.store.CanHold output.stored :=
  Store.canHold_of_reachable (by decide +kernel) (by decide +kernel)

theorem canHold_temporary : (started none).2.store.CanHold (output.temporary "t").stored :=
  Store.canHold_of_reachable (by decide +kernel) (by decide +kernel)

end FreshDirectory

open FreshDirectory in
theorem Disk.started_stack_verifies_freshDirectory :
    (∃ verification,
      (verifyManifest directory : StateM Disk _) ⟨(started none).2.store, []⟩ = (verification, ⟨(started none).2.store, []⟩) ∧
      verification.passed = true ∧ verification.issues = [] ∧ verification.specCount = some 2) ∧
    (∃ generated,
      ((runGenerate .builtin ⟨directory, []⟩ {} "t" : StateM Disk _) ⟨(started none).2.store, []⟩).1.outcome = .ok generated ∧
        generated.jobs = 2) ∧
    (started (some [])).1.outcome = .ok [] ∧
    ∃ verification,
      (verifyManifest directory : StateM Disk _) ⟨(started (some [])).2.store, []⟩ =
          (verification, ⟨(started (some [])).2.store, []⟩) ∧
        verification.issues = [.malformed ⟨[.key "name"], .emptyText⟩] := by
  obtain ⟨_, _, verification, verified, _, passes⟩ :=
    Disk.started_stack_verifies directory {} (ran none) starts_default.1 starts_default.2
  obtain ⟨_, _, refused, read, faulty, _⟩ :=
    Disk.started_stack_verifies directory { name := some [] } (ran (some [])) starts_unnamed.1 starts_unnamed.2
  obtain ⟨passed, issues, count, generates⟩ := passes (by decide)
  exact ⟨⟨verification, verified, passed, issues, count⟩, generates [] "t" .gitlab rfl canHold_output canHold_temporary,
    starts_unnamed.1, refused, read, faulty rfl⟩

end BuildPipeline
