import BuildPipeline.Plan.Jobs
import BuildPipeline.Proofs.Bridging
import BuildPipeline.Proofs.BuildOrder
import BuildPipeline.Proofs.Tables

/-! What one planning step adds, and what a whole plan is therefore made of. The
build order puts everything that a job needs in front of it, so its stage is
taken from the stages that its needs already have. -/

namespace BuildPipeline
open Relation

theorem foldl_max_le_iff {α : Type _} (items : List α) (value : α → Nat) (start bound : Nat) :
    items.foldl (fun best item => max best (value item)) start ≤ bound ↔
      start ≤ bound ∧ ∀ item ∈ items, value item ≤ bound := by
  induction items generalizing start with
  | nil => simp
  | cons item rest ih =>
    rw [List.foldl_cons, ih, Nat.max_le, and_assoc]
    simp

theorem foldl_max_attained {α : Type _} (items : List α) (value : α → Nat) (start : Nat) :
    items.foldl (fun best item => max best (value item)) start = start ∨
      ∃ item ∈ items, items.foldl (fun best item => max best (value item)) start = value item := by
  induction items generalizing start with
  | nil => exact .inl rfl
  | cons item rest ih =>
    rcases ih (max start (value item)) with same | ⟨other, member, same⟩
    · rcases Nat.le_total (value item) start with below | above
      · exact .inl (same.trans (Nat.max_eq_left below))
      · exact .inr ⟨item, List.mem_cons_self, same.trans (Nat.max_eq_right above)⟩
    · exact .inr ⟨other, List.mem_cons_of_mem _ member, same⟩

variable {pipeline : AnnotatedPipeline}

/-- A job that takes its attributes and needs from the pipeline and its stage from
its order hint and the stages of its needs among the given jobs. -/
structure Staged (pipeline : AnnotatedPipeline) (jobs : List PlannedJob) (job : PlannedJob) : Prop where
  resolved : pipeline.attributes.lookup job.node.hash = some job.attributes
  needs : job.needs = pipeline.graph.needsOf pipeline.pruning job.node.hash
  provided : ∀ need ∈ job.needs, ∃ other ∈ jobs, other.node.hash = need
  hint_le : job.attributes.orderHint ≤ job.stage
  need_le : ∀ other ∈ jobs, other.node.hash ∈ job.needs → stageAfter other.stage ≤ job.stage
  reached : job.stage = job.attributes.orderHint ∨
    ∃ other ∈ jobs, other.node.hash ∈ job.needs ∧ job.stage = stageAfter other.stage

/-- Jobs in an order in which each is staged by those in front of it. -/
inductive Planned (pipeline : AnnotatedPipeline) : List PlannedJob → Prop
  | nil : Planned pipeline []
  | snoc {jobs : List PlannedJob} {job : PlannedJob} (planned : Planned pipeline jobs)
      (fresh : job.node.hash ∉ jobs.map (·.node.hash)) (staged : Staged pipeline jobs job) :
      Planned pipeline (jobs ++ [job])

namespace Planned

variable {jobs : List PlannedJob}

theorem nodup (planned : Planned pipeline jobs) : (jobs.map (·.node.hash)).Nodup := by
  induction planned with
  | nil => exact .nil
  | snoc _ fresh _ ih =>
    rw [List.map_append, List.nodup_append]
    refine ⟨ih, by simp, ?_⟩
    rintro hash member other last rfl
    exact fresh (by simpa [List.mem_singleton.1 last] using member)

theorem eq_of_hash_eq (planned : Planned pipeline jobs) {left right : PlannedJob} (first : left ∈ jobs)
    (second : right ∈ jobs) (same : left.node.hash = right.node.hash) : left = right :=
  List.inj_on_of_nodup_map planned.nodup first second same

theorem staged (planned : Planned pipeline jobs) {job : PlannedJob} (member : job ∈ jobs) :
    Staged pipeline jobs job := by
  have widen : ∀ {earlier later : List PlannedJob}, Planned pipeline (earlier ++ later) →
      Staged pipeline earlier job → Staged pipeline (earlier ++ later) job := by
    intro earlier later whole staged
    refine { staged with provided := ?_, need_le := ?_, reached := ?_ }
    · intro need needed
      obtain ⟨other, known, same⟩ := staged.provided need needed
      exact ⟨other, List.mem_append_left _ known, same⟩
    · intro other listed needed
      obtain ⟨source, known, same⟩ := staged.provided _ needed
      obtain rfl := whole.eq_of_hash_eq (List.mem_append_left _ known) listed same
      exact staged.need_le source known needed
    · refine staged.reached.imp_right ?_
      rintro ⟨other, known, rest⟩
      exact ⟨other, List.mem_append_left _ known, rest⟩
  induction planned with
  | nil => cases member
  | @snoc jobs last planned fresh staged ih =>
    have whole := planned.snoc fresh staged
    rcases List.mem_append.1 member with earlier | final
    · exact widen whole (ih earlier)
    · obtain rfl := List.mem_singleton.1 final
      exact widen whole staged

end Planned

namespace PlanDraft

/-- A draft whose memo is true and whose stages are those of its jobs. -/
structure Valid (pipeline : AnnotatedPipeline) (draft : PlanDraft) : Prop where
  memo : pipeline.graph.MemoSound pipeline.pruning draft.memo
  planned : Planned pipeline draft.jobs
  stages : draft.stages = draft.jobs.map fun job => (job.node.hash, job.stage)

theorem valid_empty : Valid pipeline {} :=
  ⟨PipelineGraph.memoSound_nil, .nil, rfl⟩

theorem Valid.stageOf {draft : PlanDraft} (valid : draft.Valid pipeline) {job : PlannedJob}
    (member : job ∈ draft.jobs) : draft.stageOf job.node.hash = job.stage := by
  have unique : (draft.stages.map Prod.fst).Nodup := by
    simpa [valid.stages, Function.comp_def] using valid.planned.nodup
  have listed : (job.node.hash, job.stage) ∈ draft.stages := by
    rw [valid.stages]
    exact List.mem_map.2 ⟨job, member, rfl⟩
  rw [PlanDraft.stageOf, (lookup_eq_some_iff_mem unique).2 listed]
  rfl

/-- One step plans one job behind the others, once all its needs have jobs. -/
theorem add_spec (acyclic : pipeline.graph.Acyclic) {draft : PlanDraft} (valid : draft.Valid pipeline)
    {node : SpecNode} {attributes : JobAttributes}
    (resolved : pipeline.attributes.lookup node.hash = some attributes)
    (fresh : node.hash ∉ draft.jobs.map (·.node.hash))
    (ready : ∀ need, pipeline.graph.Needs pipeline.pruning node.hash need →
      ∃ other ∈ draft.jobs, other.node.hash = need) :
    ∃ next, draft.add pipeline node = .ok next ∧ next.Valid pipeline ∧
      next.jobs.map PlannedJob.node = draft.jobs.map PlannedJob.node ++ [node] := by
  obtain ⟨memo, _, _⟩ := PipelineGraph.bridgedDependencies_spec acyclic valid.memo node.hash
  have needed := PipelineGraph.bridgedDependencies_eq_needsOf acyclic valid.memo node.hash
  let needs := pipeline.graph.needsOf pipeline.pruning node.hash
  let stage := needs.foldl (fun stage need => max stage (stageAfter (draft.stageOf need))) attributes.orderHint
  let job : PlannedJob := ⟨node, attributes, needs, stage⟩
  refine ⟨⟨(pipeline.graph.bridgedDependencies pipeline.pruning draft.memo node.hash).2,
    draft.stages ++ [(node.hash, stage)], draft.jobs ++ [job]⟩, ?_, ⟨memo, ?_, ?_⟩, ?_⟩
  · simp only [add, resolved, needed]
    rfl
  · have provided : ∀ need ∈ needs, ∃ other ∈ draft.jobs, other.node.hash = need := fun need member =>
      ready need ((PipelineGraph.mem_needsOf acyclic).1 member)
    have bounds := (foldl_max_le_iff needs (fun need => stageAfter (draft.stageOf need))
      attributes.orderHint stage).1 (Nat.le_refl _)
    refine valid.planned.snoc fresh ⟨resolved, rfl, provided, bounds.1, ?_, ?_⟩
    · intro other listed member
      have below := bounds.2 _ member
      rwa [valid.stageOf listed] at below
    · refine (foldl_max_attained needs (fun need => stageAfter (draft.stageOf need))
        attributes.orderHint).imp_right ?_
      rintro ⟨need, member, same⟩
      obtain ⟨other, listed, rfl⟩ := provided need member
      rw [valid.stageOf listed] at same
      exact ⟨other, listed, member, same⟩
  · simp [valid.stages, job]
  · simp [job]

theorem resolved_of_foldlM {nodes : List SpecNode} {draft last : PlanDraft}
    (done : nodes.foldlM (add pipeline) draft = .ok last) :
    ∀ node ∈ nodes, (pipeline.attributes.lookup node.hash).isSome := by
  induction nodes generalizing draft with
  | nil => simp
  | cons node rest ih =>
    cases found : pipeline.attributes.lookup node.hash with
    | none => simp [List.foldlM_cons, add, found, bind, Except.bind] at done
    | some attributes =>
      simp only [List.foldlM_cons, add, found, bind, Except.bind] at done
      intro other member
      rcases List.mem_cons.1 member with rfl | later
      · simp [found]
      · exact ih done other later

/-- A run over resolved nodes reaches its end, and each job has the attributes of its node. -/
theorem exists_foldlM {nodes : List SpecNode}
    (resolved : ∀ node ∈ nodes, (pipeline.attributes.lookup node.hash).isSome) (draft : PlanDraft)
    (own : ∀ job ∈ draft.jobs, pipeline.attributes.lookup job.node.hash = some job.attributes) :
    ∃ last, nodes.foldlM (add pipeline) draft = .ok last ∧
      ∀ job ∈ last.jobs, pipeline.attributes.lookup job.node.hash = some job.attributes := by
  induction nodes generalizing draft with
  | nil => exact ⟨draft, rfl, own⟩
  | cons node rest ih =>
    obtain ⟨attributes, found⟩ := Option.isSome_iff_exists.1 (resolved node List.mem_cons_self)
    rw [List.foldlM_cons]
    simp only [add, found]
    refine ih (fun other later => resolved other (List.mem_cons_of_mem _ later)) _ fun job member => ?_
    rcases List.mem_append.1 member with earlier | last
    · exact own job earlier
    · obtain rfl := List.mem_singleton.1 last
      exact found

end PlanDraft

namespace PipelineGraph

variable {graph : PipelineGraph}

/-- Everything behind a node of the build order stands in front of it. -/
theorem mem_before_of_transGen (acyclic : graph.Acyclic) {before after : List SpecNode} {node : SpecNode}
    (split : graph.topologicalOrder = before ++ node :: after) {hash : Text}
    (path : TransGen graph.DependsOn node.hash hash) : hash ∈ before.map SpecNode.hash := by
  have listed : ∀ other ∈ before ++ node :: after, other ∈ graph.nodes := by
    intro other member
    rw [← split] at member
    exact acyclic.topologicalOrder_perm.mem_iff.1 member
  have first : DependenciesFirst [] graph.topologicalOrder := topologicalOrder_dependenciesFirst
  rw [split] at first
  induction path with
  | @single dependency edge =>
    have named : dependency ∈ node.dependencies := by
      rwa [DependsOn, dependenciesOf_hash (listed node (by simp))] at edge
    simpa using first.of_append dependency named
  | @tail between last _ edge ih =>
    obtain ⟨other, member, rfl⟩ := List.mem_map.1 ih
    have named : last ∈ other.dependencies := by
      rwa [DependsOn, dependenciesOf_hash (listed other (List.mem_append_left _ member))] at edge
    obtain ⟨front, back, rfl⟩ := List.append_of_mem member
    rw [List.append_assoc, List.cons_append] at first
    have earlier := first.of_append last named
    simp only [List.not_mem_nil, false_or] at earlier
    simp only [List.map_append, List.mem_append]
    exact .inl earlier

theorem notMem_before (acyclic : graph.Acyclic) {before after : List SpecNode} {node : SpecNode}
    (split : graph.topologicalOrder = before ++ node :: after) : node.hash ∉ before.map SpecNode.hash := by
  have unique : ((before ++ node :: after).map SpecNode.hash).Nodup := by
    rw [← split]
    exact (acyclic.topologicalOrder_perm.map SpecNode.hash).nodup_iff.2 graph.hashes_unique
  rw [List.map_append, List.nodup_append] at unique
  exact fun member => unique.2.2 _ member _ List.mem_cons_self rfl

end PipelineGraph

namespace AnnotatedPipeline

def Resolved (pipeline : AnnotatedPipeline) : Prop :=
  ∀ node ∈ pipeline.graph.keptNodes pipeline.pruning, (pipeline.attributes.lookup node.hash).isSome

/-- The run over the rest of the build order, from the jobs of what is done. -/
theorem foldlM_add (acyclic : pipeline.graph.Acyclic) (resolved : pipeline.Resolved)
    (rest done : List SpecNode) (split : pipeline.graph.topologicalOrder = done ++ rest)
    (draft : PlanDraft) (valid : draft.Valid pipeline)
    (nodes : draft.jobs.map PlannedJob.node = done.filter fun node => pipeline.pruning.isKept node.hash) :
    ∃ last, (rest.filter fun node => pipeline.pruning.isKept node.hash).foldlM
        (PlanDraft.add pipeline) draft = .ok last ∧ last.Valid pipeline ∧
      last.jobs.map PlannedJob.node =
        pipeline.graph.topologicalOrder.filter fun node => pipeline.pruning.isKept node.hash := by
  induction rest generalizing done draft with
  | nil => exact ⟨draft, rfl, valid, by rw [nodes, split, List.append_nil]⟩
  | cons node rest ih =>
    have again : pipeline.graph.topologicalOrder = (done ++ [node]) ++ rest := by
      rw [split, List.append_assoc, List.singleton_append]
    by_cases kept : pipeline.pruning.isKept node.hash = true
    · have listed : node ∈ pipeline.graph.nodes :=
        acyclic.topologicalOrder_perm.mem_iff.1 (by simp [split])
      obtain ⟨attributes, found⟩ := Option.isSome_iff_exists.1
        (resolved node (List.mem_filter.2 ⟨listed, kept⟩))
      have hashes : draft.jobs.map (·.node.hash) =
          (done.filter fun node => pipeline.pruning.isKept node.hash).map SpecNode.hash := by
        rw [← nodes, List.map_map]
        rfl
      have fresh : node.hash ∉ draft.jobs.map (·.node.hash) := by
        rw [hashes]
        exact fun member => PipelineGraph.notMem_before acyclic split
          ((List.filter_sublist.map SpecNode.hash).subset member)
      have ready : ∀ need, pipeline.graph.Needs pipeline.pruning node.hash need →
          ∃ other ∈ draft.jobs, other.node.hash = need := by
        rintro need ⟨keptNeed, bridge⟩
        have before := PipelineGraph.mem_before_of_transGen acyclic split bridge.transGen
        obtain ⟨source, earlier, rfl⟩ := List.mem_map.1 before
        have member : source.hash ∈ draft.jobs.map (·.node.hash) := by
          rw [hashes]
          exact List.mem_map_of_mem (List.mem_filter.2 ⟨earlier, keptNeed⟩)
        obtain ⟨other, known, same⟩ := List.mem_map.1 member
        exact ⟨other, known, same⟩
      obtain ⟨next, added, nextValid, extended⟩ := PlanDraft.add_spec acyclic valid found fresh ready
      obtain ⟨last, ran, facts⟩ := ih (done ++ [node]) again next nextValid (by simp [extended, nodes, kept])
      refine ⟨last, ?_, facts⟩
      simp only [kept, List.filter_cons_of_pos, List.foldlM_cons, added]
      exact ran
    · obtain ⟨last, ran, facts⟩ := ih (done ++ [node]) again draft valid (by simp [nodes, kept])
      exact ⟨last, by simpa [kept] using ran, facts⟩

theorem plan_spec (acyclic : pipeline.graph.Acyclic) (resolved : pipeline.Resolved) :
    ∃ jobs, pipeline.plan = .ok ⟨sortBy PlannedJob.le jobs, stagesOf (sortBy PlannedJob.le jobs)⟩ ∧
      Planned pipeline jobs ∧
      (jobs.map PlannedJob.node).Perm (pipeline.graph.keptNodes pipeline.pruning) := by
  obtain ⟨last, ran, valid, nodes⟩ := foldlM_add acyclic resolved pipeline.graph.topologicalOrder []
    rfl {} PlanDraft.valid_empty rfl
  refine ⟨last.jobs, ?_, valid.planned, ?_⟩
  · simp only [plan, ran, bind, Except.bind]
    rfl
  · rw [nodes]
    exact acyclic.topologicalOrder_perm.filter _

/-- Resolved nodes are planned with their attributes, be there cycles among them or not. -/
theorem Resolved.exists_plan (resolved : pipeline.Resolved) :
    ∃ plan, pipeline.plan = .ok plan ∧
      ∀ job ∈ plan.jobs, pipeline.attributes.lookup job.node.hash = some job.attributes := by
  have kept : ∀ node ∈ pipeline.graph.topologicalOrder.filter fun node => pipeline.pruning.isKept node.hash,
      (pipeline.attributes.lookup node.hash).isSome := by
    intro node listed
    obtain ⟨ordered, kept⟩ := List.mem_filter.1 listed
    exact resolved node (List.mem_filter.2 ⟨PipelineGraph.topologicalOrder_subset _ ordered, kept⟩)
  obtain ⟨last, ran, own⟩ := PlanDraft.exists_foldlM kept {} (by simp)
  refine ⟨⟨sortBy PlannedJob.le last.jobs, stagesOf (sortBy PlannedJob.le last.jobs)⟩, ?_, ?_⟩
  · simp only [plan, ran, bind, Except.bind]
    rfl
  · exact fun job member => own job (mem_sortBy.1 member)

/-- Planning fails only for want of attributes. -/
theorem exists_plan_iff (acyclic : pipeline.graph.Acyclic) :
    (∃ plan, pipeline.plan = .ok plan) ↔ pipeline.Resolved := by
  constructor
  · rintro ⟨plan, planned⟩ node kept
    unfold AnnotatedPipeline.plan at planned
    cases ran : (pipeline.graph.topologicalOrder.filter fun node => pipeline.pruning.isKept node.hash).foldlM
        (PlanDraft.add pipeline) {} with
    | error error => simp [ran, bind, Except.bind] at planned
    | ok last =>
      apply PlanDraft.resolved_of_foldlM ran node
      exact (acyclic.topologicalOrder_perm.filter _).mem_iff.2 kept
  · intro resolved
    obtain ⟨jobs, planned, _⟩ := plan_spec acyclic resolved
    exact ⟨_, planned⟩

end AnnotatedPipeline

end BuildPipeline
