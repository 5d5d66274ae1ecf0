import BuildPipeline.Platform.Registry
import BuildPipeline.Proofs.Assembling
import BuildPipeline.Proofs.Cycles
import BuildPipeline.Proofs.JobNames

/-! Every end that a run over a linked stack can come to. It either reports one of
three errors or has planned a job for each kept node, none of them twice. -/

namespace BuildPipeline

namespace Gitlab

def jobMembers (config : CiConfig) (plan : JobPlan) (names : JobKeys) : List (Text × Document) :=
  plan.jobs.map fun job => (jobName job.node, buildJob config names job)

def members (config : CiConfig) (settings : PipelineOptions) (plan : JobPlan) (names : JobKeys) :
    List (Text × Document) :=
  sortBy (fun left right => textLe left.1 right.1)
    (jobMembers config plan names ++ fixedMembers config settings plan)

theorem document_eq (config : CiConfig) (settings : PipelineOptions) (plan : JobPlan) :
    document config settings plan = (jobKeys (plan.jobs.map PlannedJob.node) jobName).map fun names =>
      .mapping (members config settings plan names) := by
  unfold document
  cases jobKeys (plan.jobs.map PlannedJob.node) jobName <;> rfl

end Gitlab

namespace Github

def jobMembers (config : CiConfig) (plan : JobPlan) (ids : JobKeys) : List (Text × Document) :=
  plan.jobs.map fun job => (jobId job.node, buildJob config ids job)

/-- The jobs of a workflow, or the one that says that there are none. -/
def listedMembers (config : CiConfig) (plan : JobPlan) (ids : JobKeys) : List (Text × Document) :=
  if plan.jobs.isEmpty then [("noop", emptyJob config)] else jobMembers config plan ids

theorem document_eq (config : CiConfig) (settings : PipelineOptions) (plan : JobPlan) :
    document config settings plan = (jobKeys (plan.jobs.map PlannedJob.node) jobId).map fun ids =>
      .mapping
        [("name", .text "stackci"),
         ("on", .mapping [("workflow_dispatch", .mapping [])]),
         ("env", .ofVariables (pipelineVariables config settings)),
         ("jobs", .mapping (listedMembers config plan ids))] := by
  unfold document listedMembers jobMembers
  cases jobKeys (plan.jobs.map PlannedJob.node) jobId with
  | error failure => rfl
  | ok ids => cases plan.jobs <;> rfl

end Github

namespace AnnotatedPipeline

variable {pipeline : AnnotatedPipeline} {plan : JobPlan}

theorem renderGitlab_of_plan (planned : pipeline.plan = .ok plan) (written : CiConfig) (settings : PipelineOptions) :
    pipeline.renderGitlab written settings = (Gitlab.document written settings plan).map Document.render := by
  rw [renderGitlab, planned]
  cases shaped : Gitlab.document written settings plan <;> simp only [bind, Except.bind, shaped] <;> rfl

theorem renderGithub_of_plan (planned : pipeline.plan = .ok plan) (written : CiConfig) (settings : PipelineOptions) :
    pipeline.renderGithub written settings = (Github.document written settings plan).map Document.render := by
  rw [renderGithub, planned]
  cases shaped : Github.document written settings plan <;> simp only [bind, Except.bind, shaped] <;> rfl

end AnnotatedPipeline

namespace JobPlan

variable {plan : JobPlan}

/-- A text, or the report that two of the jobs would be written under one key. -/
def IsWrittenBy (plan : JobPlan) (keyOf : SpecNode → Text) (result : Except PipelineError Text) : Prop :=
  (∃ text, result = .ok text) ∨
    ∃ owner node, KeyClash keyOf (plan.jobs.map PlannedJob.node) owner node ∧ owner.hash ≠ node.hash ∧
      result = .error (.duplicateJob (keyOf node) owner.hash node.hash)

theorem nodup_hashes (once : (plan.jobs.map (·.node.hash)).Nodup) :
    ((plan.jobs.map PlannedJob.node).map SpecNode.hash).Nodup := by
  rwa [List.map_map]

theorem isWrittenBy_map_jobKeys (once : (plan.jobs.map (·.node.hash)).Nodup) (keyOf : SpecNode → Text)
    (finish : JobKeys → Text) :
    plan.IsWrittenBy keyOf ((jobKeys (plan.jobs.map PlannedJob.node) keyOf).map finish) := by
  have unique := nodup_hashes once
  rcases map_jobKeys keyOf unique finish with ⟨made, _⟩ | ⟨owner, node, clash, stopped⟩
  · exact .inl ⟨_, made⟩
  · exact .inr ⟨owner, node, clash, clash.hash_ne unique, stopped⟩

end JobPlan

namespace LinkedStack

variable {stack : LinkedStack} {config : CiConfig} {options : PruneOptions} {signals : PruneSignals}

/-- A plan with one job for each kept node of a graph that was put into an order. -/
structure PlansAllKept (pipeline : AnnotatedPipeline) (plan : JobPlan) : Prop where
  planned : pipeline.plan = .ok plan
  ordered : pipeline.graph.topologicalOrder.Perm pipeline.graph.nodes
  jobs : (plan.jobs.map PlannedJob.node).Perm (pipeline.graph.keptNodes pipeline.pruning)
  once : (plan.jobs.map (·.node.hash)).Nodup

theorem exists_plansAllKept {pipeline : AnnotatedPipeline}
    (made : stack.assemble config options signals = .ok pipeline) : ∃ plan, PlansAllKept pipeline plan := by
  obtain ⟨_, acyclic, _, _⟩ := assemble_spec made
  obtain ⟨jobs, ran, planned, nodes⟩ := assembled_plan made
  have same := sortBy_perm PlannedJob.le jobs
  exact ⟨_, ran, acyclic.topologicalOrder_perm, (same.map _).trans nodes, (same.map _).nodup_iff.2 planned.nodup⟩

/-- A run over a stack reports a cycle that a root reaches, or an attribute that a
kept node lacks, or else plans one job for each kept node, and then any platform
writes the jobs or reports two of them that would share a key. -/
theorem run_reports_or_plans (stack : LinkedStack) (config : CiConfig) (options : PruneOptions)
    (signals : PruneSignals) :
    (∃ cycle, stack.assemble config options signals = .error (.cyclicDependency (cycle.map stack.label)) ∧
        stack.IsCycle cycle ∧ ∀ key ∈ cycle, stack.Reachable key) ∨
      (∃ graph, stack.graph = .ok graph ∧ ∃ node ∈ graph.keptNodes (graph.prune options signals []), ∃ field,
        stack.assemble config options signals = .error (.missingAttribute node.hash node.label field)) ∨
      ∃ pipeline plan, stack.assemble config options signals = .ok pipeline ∧ PlansAllKept pipeline plan ∧
        ∀ written settings,
          plan.IsWrittenBy Gitlab.jobName (pipeline.renderGitlab written settings) ∧
          plan.IsWrittenBy Github.jobId (pipeline.renderGithub written settings) := by
  cases walked : stack.walk with
  | error cycle =>
    obtain ⟨real, reachable⟩ := walk_error walked
    exact .inl ⟨cycle, assemble_of_error (graph_of_walk_error walked) config options signals, real, reachable⟩
  | ok build =>
    obtain ⟨graph, built, _⟩ := exists_graph_of_walk walked
    cases made : stack.assemble config options signals with
    | error failure =>
      obtain ⟨node, kept, field, rfl⟩ := exists_node_of_assemble built made
      exact .inr (.inl ⟨graph, built, node, kept, field, rfl⟩)
    | ok pipeline =>
      obtain ⟨plan, all⟩ := exists_plansAllKept made
      refine .inr (.inr ⟨pipeline, plan, rfl, all, fun written settings => ⟨?_, ?_⟩⟩)
      · rw [AnnotatedPipeline.renderGitlab_of_plan all.planned, Gitlab.document_eq, map_map]
        exact JobPlan.isWrittenBy_map_jobKeys all.once _ _
      · rw [AnnotatedPipeline.renderGithub_of_plan all.planned, Github.document_eq, map_map]
        exact JobPlan.isWrittenBy_map_jobKeys all.once _ _

end LinkedStack

end BuildPipeline
