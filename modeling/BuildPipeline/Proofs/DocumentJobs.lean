import BuildPipeline.Proofs.LeastStages
import BuildPipeline.Proofs.ShownJobs
import BuildPipeline.Proofs.WholeNumerals

/-! Documents of both platforms against the plan that they are made of. No entry
takes the place of another, so a reader finds the planned jobs and nothing else. -/

namespace BuildPipeline

/-- What is made of the keys of a plan's jobs is made of keys of their own. -/
theorem JobPlan.Closed.map_jobKeys_eq_ok {plan : JobPlan} (closed : plan.Closed) {keyOf : SpecNode → Text}
    {α : Type _} {finish : JobKeys → α} {result : α}
    (made : (jobKeys (plan.jobs.map PlannedJob.node) keyOf).map finish = .ok result) :
    result = finish (plan.keys keyOf) ∧ (plan.jobs.map fun job => keyOf job.node).Nodup := by
  rcases map_jobKeys keyOf (nodup_hashes closed.once) finish with ⟨given, apart⟩ | ⟨owner, node, _, stopped⟩
  · rw [List.map_map] at apart
    exact ⟨Except.ok.inj (made.symm.trans given), apart⟩
  · exact nomatch made.symm.trans stopped

/-- Keys of their own are all that it takes. -/
theorem JobPlan.Closed.exists_map_jobKeys_iff {plan : JobPlan} (closed : plan.Closed) (keyOf : SpecNode → Text)
    {α : Type _} (finish : JobKeys → α) :
    (∃ result, (jobKeys (plan.jobs.map PlannedJob.node) keyOf).map finish = .ok result) ↔
      (plan.jobs.map fun job => keyOf job.node).Nodup := by
  constructor
  · rintro ⟨result, made⟩
    exact (closed.map_jobKeys_eq_ok made).2
  · intro apart
    rcases map_jobKeys keyOf (nodup_hashes closed.once) finish with ⟨given, _⟩ | ⟨owner, node, clash, _⟩
    · exact ⟨_, given⟩
    · have shared := clash.not_nodup
      rw [List.map_map] at shared
      exact absurd apart shared

/-- The stages in use, ascending, under names that tell them from the index stage. -/
structure JobPlan.NamesStages (plan : JobPlan) : Prop where
  ascending : plan.stages.Pairwise (· < ·)
  used : ∀ stage, stage ∈ plan.stages ↔ ∃ job ∈ plan.jobs, job.stage = stage
  digits : ∀ stage ∈ plan.stages, stage < 2 ^ 53 → stageName stage = Text.ofString "stage-" ++ decimal stage
  index : Gitlab.indexStage ∉ plan.stages.map stageName

theorem JobPlan.namesStages_stagesOf (jobs : List PlannedJob) : JobPlan.NamesStages ⟨jobs, stagesOf jobs⟩ where
  ascending := pairwise_stagesOf jobs
  used := fun _ => mem_stagesOf
  digits := fun _ _ small => by rw [stageName, numeral_of_lt small]
  index := indexStage_notMem _

section Platforms

variable {plan : JobPlan} {config : CiConfig} {settings : PipelineOptions} {document : Document}

namespace Gitlab

theorem member?_needs (config : CiConfig) (names : JobKeys) (job : PlannedJob) :
    (buildJob config names job).member? "needs" = some (needs names job) := by
  unfold Document.member? buildJob Document.ofParts imageMember
  cases config.imageName? <;> cases config.beforeScript <;> rfl

theorem shownJob?_buildJob (config : CiConfig) (plan : JobPlan) (job : PlannedJob) :
    shownJob? (jobName job.node, buildJob config (plan.keys jobName) job) = some (plan.entry jobName job) := by
  have stage : (buildJob config (plan.keys jobName) job).member? "stage" = some (.text (stageName job.stage)) := rfl
  have listed : needs (plan.keys jobName) job =
      .list ((job.needs.filterMap fun hash => (plan.keys jobName).lookup hash).map need) := by
    rw [needs, List.map_filterMap]
  have named : ∀ name, shownNeed? (need name) = some name := fun _ => rfl
  simp only [shownJob?, member?_needs, listed, stage, Option.bind_eq_bind, Option.bind_some, Document.text?,
    Document.items?]
  rw [mapM_map_eq_some id named, List.map_id]
  rfl

theorem keys_fixedMembers (config : CiConfig) (settings : PipelineOptions) (plan : JobPlan) :
    ((fixedMembers config settings plan).map Prod.fst).Sublist fixedNames := by
  have all : ∀ keys ∈ ([["no-specs-to-rebuild", "workflow"], ["rebuild-index", "stages", "variables", "workflow"],
      ["stages", "variables", "workflow"]] : List (List Text)), keys.Sublist fixedNames := by decide +kernel
  refine all _ ?_
  unfold fixedMembers planMembers
  cases plan.jobs <;> cases rebuildsIndex config <;> simp [emptyMembers]

/-- Every member has a key of its own, and those of the jobs are none of the fixed
ones. -/
structure Shows (config : CiConfig) (settings : PipelineOptions) (plan : JobPlan) (document : Document)
    (shown : List ShownJob) : Prop where
  keys_unique : (document.members.map Prod.fst).Nodup
  fixed : ∀ member ∈ fixedMembers config settings plan, document.member? member.1 = some member.2
  apart : ∀ job ∈ plan.jobs, jobName job.node ∉ fixedNames
  read : shownJobs? document = some shown
  jobs : plan.ShownAs jobName shown
  staged : ∀ job ∈ shown, job.stage ∈ plan.stages.map stageName
  stages : shown ≠ [] → document.member? "stages" =
    some (.ofTexts (plan.stages.map stageName ++ if rebuildsIndex config then [indexStage] else []))

theorem members_perm (config : CiConfig) (settings : PipelineOptions) (plan : JobPlan) (names : JobKeys) :
    (members config settings plan names).Perm (jobMembers config plan names ++ fixedMembers config settings plan) :=
  sortBy_perm _ _

theorem nodup_members (apart : (plan.jobs.map fun job => jobName job.node).Nodup) (config : CiConfig)
    (settings : PipelineOptions) (names : JobKeys) : ((members config settings plan names).map Prod.fst).Nodup := by
  have fixed := keys_fixedMembers config settings plan
  have jobs : (jobMembers config plan names).map Prod.fst = plan.jobs.map fun job => jobName job.node := by
    rw [jobMembers, List.map_map]
    rfl
  rw [((members_perm config settings plan names).map Prod.fst).nodup_iff, List.map_append, jobs, List.nodup_append]
  refine ⟨apart, fixed.nodup (by decide +kernel), ?_⟩
  rintro key listed _ own rfl
  obtain ⟨job, _, rfl⟩ := List.mem_map.1 listed
  exact jobName_notMem_fixedNames job.node (fixed.subset own)

theorem member?_fixed (apart : (plan.jobs.map fun job => jobName job.node).Nodup) (names : JobKeys) :
    ∀ member ∈ fixedMembers config settings plan,
      (Document.mapping (members config settings plan names)).member? member.1 = some member.2 := by
  intro member listed
  refine (lookup_eq_some_iff_mem (nodup_members apart config settings names)).2 ?_
  exact (members_perm config settings plan names).mem_iff.2 (List.mem_append_right _ listed)

/-- Without the fixed entries the entries of the jobs are left. -/
theorem filter_members (config : CiConfig) (settings : PipelineOptions) (plan : JobPlan) (names : JobKeys) :
    (members config settings plan names).filter (fun member => member.1 ∉ fixedNames) =
      sortBy (fun left right => textLe left.1 right.1) (jobMembers config plan names) := by
  have jobs : ∀ member ∈ jobMembers config plan names, decide (member.1 ∉ fixedNames) = true := by
    intro member listed
    obtain ⟨job, _, rfl⟩ := List.mem_map.1 listed
    exact decide_eq_true (jobName_notMem_fixedNames job.node)
  have fixed : ∀ member ∈ fixedMembers config settings plan, ¬ decide (member.1 ∉ fixedNames) = true := by
    intro member listed
    have own := (keys_fixedMembers config settings plan).subset (List.mem_map_of_mem listed)
    simpa using own
  rw [members, filter_sortBy (textLe_ordered.onKey Prod.fst), List.filter_append, List.filter_eq_self.2 jobs,
    List.filter_eq_nil_iff.2 fixed, List.append_nil]

theorem exists_shownJobs? (config : CiConfig) (settings : PipelineOptions) (plan : JobPlan) :
    ∃ order : List PlannedJob, order.Perm plan.jobs ∧
      shownJobs? (.mapping (members config settings plan (plan.keys jobName))) =
        some (order.map (plan.entry jobName)) := by
  let before (left right : PlannedJob) : Bool := textLe (jobName left.node) (jobName right.node)
  let member (job : PlannedJob) : Text × Document := (jobName job.node, buildJob config (plan.keys jobName) job)
  have sorted : sortBy (fun left right => textLe left.1 right.1) (jobMembers config plan (plan.keys jobName)) =
      (sortBy before plan.jobs).map member := sortBy_map member (fun _ _ => rfl) plan.jobs
  refine ⟨sortBy before plan.jobs, sortBy_perm _ _, ?_⟩
  rw [shownJobs?, Document.members, filter_members, sorted]
  exact mapM_map_eq_some (plan.entry jobName) (shownJob?_buildJob config plan) _

theorem stages_mem_fixedMembers (config : CiConfig) (settings : PipelineOptions) (some : plan.jobs ≠ []) :
    (Text.ofString "stages", Document.ofTexts
      (plan.stages.map stageName ++ if rebuildsIndex config then [indexStage] else [])) ∈
        fixedMembers config settings plan := by
  unfold fixedMembers planMembers
  cases listed : plan.jobs with
  | nil => exact absurd listed some
  | cons first rest => cases rebuildsIndex config <;> simp

theorem exists_shows (closed : plan.Closed) (staged : ∀ job ∈ plan.jobs, job.stage ∈ plan.stages)
    (made : Gitlab.document config settings plan = .ok document) : ∃ shown, Shows config settings plan document shown := by
  rw [document_eq] at made
  obtain ⟨rfl, apart⟩ := closed.map_jobKeys_eq_ok made
  obtain ⟨order, same, read⟩ := exists_shownJobs? config settings plan
  have jobs := closed.shownAs_entries apart same
  refine ⟨_, nodup_members apart config settings _, member?_fixed apart _,
    fun job _ => jobName_notMem_fixedNames job.node, read, jobs, jobs.stage_mem staged, fun some => ?_⟩
  have planned : plan.jobs ≠ [] := fun none => some (jobs.eq_nil_iff.2 none)
  exact member?_fixed apart _ _ (stages_mem_fixedMembers config settings planned)

end Gitlab

namespace Github

theorem member?_needs (config : CiConfig) (ids : JobKeys) (job : PlannedJob) :
    (buildJob config ids job).member? "needs" =
      if (needs ids job).isEmpty then none else some (.ofTexts (needs ids job)) := by
  unfold Document.member? buildJob Document.ofParts needsMember
  cases config.imageName? <;> cases needs ids job <;> rfl

theorem shownNeeds?_buildJob (config : CiConfig) (ids : JobKeys) (job : PlannedJob) :
    shownNeeds? (buildJob config ids job) = some (needs ids job) := by
  have texts : ∀ name : Text, Document.text? (.text name) = some name := fun _ => rfl
  rw [shownNeeds?, member?_needs]
  cases needs ids job with
  | nil => rfl
  | cons first rest => exact (mapM_map_eq_some id texts _).trans (by rw [List.map_id])

theorem shownJob?_buildJob (config : CiConfig) (plan : JobPlan) (job : PlannedJob) :
    shownJob? (jobId job.node, buildJob config (plan.keys jobId) job) = some (plan.entry jobId job) := by
  have title : (buildJob config (plan.keys jobId) job).member? "name" = some (.text (jobTitle job)) := rfl
  have stage : (jobTitle job).takeWhile (· ≠ CodeUnit.ofChar ':') = stageName job.stage := by
    rw [jobTitle, List.append_assoc, takeWhile_stageName]
  simp only [shownJob?, title, shownNeeds?_buildJob, Option.bind_eq_bind, Option.bind_some, Document.text?, stage]
  rfl

/-- The entries under `jobs` have keys of their own, and without build jobs there is
the one that says so. -/
structure Shows (config : CiConfig) (plan : JobPlan) (document : Document) (shown : List ShownJob) : Prop where
  listed : ∃ entries, document.member? "jobs" = some (.mapping entries) ∧ (entries.map Prod.fst).Nodup ∧
    (shown = [] → entries = [(Text.ofString "noop", emptyJob config)])
  apart : ∀ job ∈ plan.jobs, jobId job.node ∉ fixedIds
  read : shownJobs? document = some shown
  jobs : plan.ShownAs jobId shown
  staged : ∀ job ∈ shown, job.stage ∈ plan.stages.map stageName

theorem nodup_listedMembers (apart : (plan.jobs.map fun job => jobId job.node).Nodup) (config : CiConfig)
    (ids : JobKeys) : ((listedMembers config plan ids).map Prod.fst).Nodup := by
  unfold listedMembers
  split
  · simp
  · rwa [jobMembers, List.map_map]

theorem filter_listedMembers (config : CiConfig) (plan : JobPlan) (ids : JobKeys) :
    (listedMembers config plan ids).filter (fun member => member.1 ∉ fixedIds) = jobMembers config plan ids := by
  unfold listedMembers
  split
  next none =>
    rw [jobMembers, List.isEmpty_iff.1 none]
    exact List.filter_eq_nil_iff.2 fun member listed => by simp [List.mem_singleton.1 listed, fixedIds]
  next =>
    refine List.filter_eq_self.2 fun member listed => ?_
    obtain ⟨job, _, rfl⟩ := List.mem_map.1 listed
    exact decide_eq_true (jobId_notMem_fixedIds job.node)

theorem exists_shows (closed : plan.Closed) (staged : ∀ job ∈ plan.jobs, job.stage ∈ plan.stages)
    (made : Github.document config settings plan = .ok document) : ∃ shown, Shows config plan document shown := by
  rw [document_eq] at made
  obtain ⟨rfl, apart⟩ := closed.map_jobKeys_eq_ok made
  have jobs := closed.shownAs_entries apart (List.Perm.refl plan.jobs)
  refine ⟨plan.jobs.map (plan.entry jobId), ⟨listedMembers config plan (plan.keys jobId), rfl,
    nodup_listedMembers apart config _, ?_⟩, fun job _ => jobId_notMem_fixedIds job.node, ?_, jobs,
    jobs.stage_mem staged⟩
  · intro none
    rw [listedMembers, jobs.eq_nil_iff.1 none]
    rfl
  · change ((listedMembers config plan (plan.keys jobId)).filter fun member => member.1 ∉ fixedIds).mapM shownJob? = _
    rw [filter_listedMembers, jobMembers]
    exact mapM_map_eq_some (plan.entry jobId) (shownJob?_buildJob config plan) _

end Github

end Platforms

theorem Planned.closed {pipeline : AnnotatedPipeline} {jobs : List PlannedJob} (planned : Planned pipeline jobs)
    {plan : JobPlan} (same : plan.jobs.Perm jobs) : plan.Closed := by
  constructor
  case once => exact (same.map fun job => job.node.hash).nodup_iff.2 planned.nodup
  case provided =>
    intro job listed need needed
    obtain ⟨source, known, found⟩ := (planned.staged (same.mem_iff.1 listed)).provided need needed
    exact ⟨source, same.mem_iff.2 known, found⟩

namespace LinkedStack

variable {stack : LinkedStack} {config : CiConfig} {options : PruneOptions} {signals : PruneSignals}
  {pipeline : AnnotatedPipeline}

/-- Whatever configuration an assembled pipeline is written with, each platform's
document has one entry for each kept node, staged and linked as planned, under a
key that nothing else has. So both documents show the same jobs. -/
theorem documents_show_plan (made : stack.assemble config options signals = .ok pipeline) (written : CiConfig)
    (settings : PipelineOptions) :
    ∃ plan, pipeline.plan = .ok plan ∧ plan.Closed ∧ plan.NamesStages ∧
      (plan.jobs.map PlannedJob.node).Perm (pipeline.graph.keptNodes pipeline.pruning) ∧
      let gitlab := Gitlab.document written settings plan
      let github := Github.document written settings plan
      pipeline.renderGitlab written settings = gitlab.map Document.render ∧
      pipeline.renderGithub written settings = github.map Document.render ∧
      ((∃ document, gitlab = .ok document) ↔ (plan.jobs.map fun job => Gitlab.jobName job.node).Nodup) ∧
      ((∃ document, github = .ok document) ↔ (plan.jobs.map fun job => Github.jobId job.node).Nodup) ∧
      (∀ document, gitlab = .ok document → ∃ shown, Gitlab.Shows written settings plan document shown) ∧
      (∀ document, github = .ok document → ∃ shown, Github.Shows written plan document shown) ∧
      ∀ document other, gitlab = .ok document → github = .ok other →
        ∃ left right rename, Gitlab.shownJobs? document = some left ∧ Github.shownJobs? other = some right ∧
          (∀ job ∈ plan.jobs, rename (Gitlab.jobName job.node) = Github.jobId job.node) ∧
          SameJobGraph rename left right := by
  obtain ⟨jobs, ran, planned, nodes⟩ := assembled_plan made
  have sorted := sortBy_perm PlannedJob.le jobs
  have closed : JobPlan.Closed ⟨_, stagesOf (sortBy PlannedJob.le jobs)⟩ := planned.closed sorted
  have staged : ∀ job ∈ sortBy PlannedJob.le jobs, job.stage ∈ stagesOf (sortBy PlannedJob.le jobs) :=
    fun job listed => mem_stagesOf.2 ⟨job, listed, rfl⟩
  refine ⟨_, ran, closed, JobPlan.namesStages_stagesOf _, (sorted.map _).trans nodes,
    AnnotatedPipeline.renderGitlab_of_plan ran written settings,
    AnnotatedPipeline.renderGithub_of_plan ran written settings, ?_, ?_,
    fun document => Gitlab.exists_shows closed staged, fun document => Github.exists_shows closed staged, ?_⟩
  · rw [Gitlab.document_eq]
    exact closed.exists_map_jobKeys_iff Gitlab.jobName _
  · rw [Github.document_eq]
    exact closed.exists_map_jobKeys_iff Github.jobId _
  · intro document other one another
    obtain ⟨left, shown⟩ := Gitlab.exists_shows closed staged one
    obtain ⟨right, shownToo⟩ := Github.exists_shows closed staged another
    exact ⟨left, right, _, shown.read, shownToo.read, fun _ => shown.jobs.rekey_eq Github.jobId,
      shown.jobs.sameJobGraph closed shownToo.jobs⟩

def pairSettings : PipelineOptions where
  platform := "gitlab"
  outputPath := "out"
  artifactsRoot := "scratch"

theorem documents_show_plan_pair :
    ∃ pipeline gitlab github left right rename, pair.assemble (hintedConfig 1) {} {} = .ok pipeline ∧
      pipeline.renderGitlab { rebuildIndex := some true } pairSettings = .ok (Document.render gitlab) ∧
      pipeline.renderGithub { rebuildIndex := some true } pairSettings = .ok (Document.render github) ∧
      Gitlab.shownJobs? gitlab = some left ∧ Github.shownJobs? github = some right ∧
      left.map (fun job => (job.stage, job.needs.length)) = [(Text.ofString "stage-2", 1), (Text.ofString "stage-1", 0)] ∧
      SameJobGraph rename left right := by
  let written : CiConfig := { rebuildIndex := some true }
  have evaluated : ((pair.assemble (hintedConfig 1) {} {}).toOption.any fun pipeline =>
      pipeline.plan.toOption.any fun plan =>
        (Github.document written pairSettings plan).toOption.isSome &&
        (Gitlab.document written pairSettings plan).toOption.any fun gitlab =>
          (Gitlab.shownJobs? gitlab).any fun left => left.map (fun job => (job.stage, job.needs.length)) =
            [(Text.ofString "stage-2", 1), (Text.ofString "stage-1", 0)]) = true := by
    decide +kernel
  obtain ⟨pipeline, made, evaluated⟩ := exists_ok_of_any evaluated
  obtain ⟨plan, planned, _, _, _, gitlabText, githubText, _, _, _, _, same⟩ :=
    documents_show_plan made written pairSettings
  rw [planned] at evaluated
  obtain ⟨githubMade, evaluated⟩ := Bool.and_eq_true_iff.1 evaluated
  obtain ⟨gitlab, gitlabMade, evaluated⟩ := exists_ok_of_any evaluated
  cases other : Github.document written pairSettings plan with
  | error failure => simp [other, Except.toOption] at githubMade
  | ok github =>
    obtain ⟨left, right, rename, read, readToo, _, alike⟩ := same gitlab github gitlabMade other
    rw [gitlabMade] at gitlabText
    rw [other] at githubText
    rw [read] at evaluated
    exact ⟨pipeline, gitlab, github, left, right, rename, made, gitlabText, githubText, read, readToo,
      of_decide_eq_true evaluated, alike⟩

end LinkedStack

end BuildPipeline
