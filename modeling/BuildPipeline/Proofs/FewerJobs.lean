import BuildPipeline.Proofs.PlannedNeeds
import BuildPipeline.Proofs.WholeDoubles

/-! Plans of one graph after two prunings, of which the second keeps less. Needs that
replace pruned ones only shorten the chains of needs that were there before, so no
job is staged later for it. -/

namespace BuildPipeline
open Relation Binary64

/-- A job is staged past all that a chain of needs leads to. -/
theorem Planned.stageAfter_le_of_transGen {pipeline : AnnotatedPipeline} {jobs : List PlannedJob}
    (acyclic : pipeline.graph.Acyclic) (planned : Planned pipeline jobs) {job last : PlannedJob}
    (listed : job ∈ jobs) (also : last ∈ jobs) {start : Text} (named : job.node.hash = start)
    (path : TransGen (pipeline.graph.Needs pipeline.pruning) start last.node.hash) :
    stageAfter last.stage ≤ job.stage := by
  have needed : ∀ {job : PlannedJob} {need : Text}, job ∈ jobs →
      pipeline.graph.Needs pipeline.pruning job.node.hash need → need ∈ job.needs := by
    intro job need listed needs
    rw [(planned.staged listed).needs]
    exact (PipelineGraph.mem_needsOf acyclic).2 needs
  induction path using TransGen.head_induction_on generalizing job with
  | single needs => exact (planned.staged listed).need_le last also (needed listed (named ▸ needs))
  | head needs _ ih =>
    have waits := needed listed (named ▸ needs)
    obtain ⟨middle, known, same⟩ := (planned.staged listed).provided _ waits
    have past : stageAfter last.stage ≤ stageAfter middle.stage :=
      le_roundNat (isWhole_stageAfter _) (Nat.le_succ_of_le (ih known same))
    exact past.trans ((planned.staged listed).need_le middle known (same ▸ waits))

namespace PipelineGraph

/-- The second pruning keeps nothing that the first one drops. -/
def KeepsFewer (graph : PipelineGraph) (first second : Pruning) : Prop :=
  ∀ node ∈ graph.nodes, second.isKept node.hash = true → first.isKept node.hash = true

variable {graph : PipelineGraph} {first second : Pruning} {attributes others : AttributeMap}
  {jobs rejobs : List PlannedJob}

theorem KeepsFewer.keptNodes_subset (fewer : graph.KeepsFewer first second) :
    graph.keptNodes second ⊆ graph.keptNodes first := by
  intro node kept
  obtain ⟨listed, kept⟩ := List.mem_filter.1 kept
  exact List.mem_filter.2 ⟨listed, fewer node listed kept⟩

/-- Each need of the smaller plan is a chain of needs in the larger one. -/
theorem KeepsFewer.transGen_needs (fewer : graph.KeepsFewer first second) {dependent need : Text}
    (needs : graph.Needs second dependent need) : TransGen (graph.Needs first) dependent need := by
  have path := needs.2.transGen
  obtain ⟨node, listed, rfl⟩ := mem_hashes.1 (mem_hashes_of_transGen path)
  exact (transGen_needs_iff (fewer node listed needs.1)).2 path

/-- The jobs of the smaller plan are staged no later than those of the larger one. -/
theorem KeepsFewer.stage_le (fewer : graph.KeepsFewer first second) (acyclic : graph.Acyclic)
    (agree : ∀ node ∈ graph.keptNodes second, others.lookup node.hash = attributes.lookup node.hash)
    (planned : Planned ⟨graph, first, attributes⟩ jobs)
    (nodes : (jobs.map PlannedJob.node).Perm (graph.keptNodes first))
    (replanned : Planned ⟨graph, second, others⟩ rejobs)
    (kept : ∀ job ∈ rejobs, job.node ∈ graph.keptNodes second) :
    ∀ job ∈ rejobs, ∀ twin ∈ jobs, job.node = twin.node → job.stage ≤ twin.stage := by
  induction replanned with
  | nil => simp
  | @snoc rejobs final replanned fresh restaged ih =>
    intro job member twin listed same
    have earlier := ih fun job member => kept job (List.mem_append_left _ member)
    rcases List.mem_append.1 member with before | last
    · exact earlier job before twin listed same
    · obtain rfl := List.mem_singleton.1 last
      have staged := planned.staged listed
      rcases restaged.reached with hinted | ⟨source, before, needed, past⟩
      · have resolved := agree job.node (kept job member)
        rw [restaged.resolved, same, staged.resolved] at resolved
        rw [hinted, Option.some.inj resolved]
        exact staged.hint_le
      · have keptSource := kept source (List.mem_append_left _ before)
        obtain ⟨partner, known, node⟩ := List.mem_map.1 (nodes.mem_iff.2 (fewer.keptNodes_subset keptSource))
        rw [restaged.needs, mem_needsOf acyclic] at needed
        have chain := fewer.transGen_needs needed
        rw [same, ← node] at chain
        calc job.stage = stageAfter source.stage := past
          _ ≤ stageAfter partner.stage := stageAfter_mono (earlier source before partner known node.symm)
          _ ≤ twin.stage := planned.stageAfter_le_of_transGen acyclic listed known rfl chain

/-- Keeping fewer builds plans each of them no later. Both plans exist as soon as the
attributes of the first are resolved and those of the second are the same. -/
theorem stages_no_later_when_fewer_kept (graph : PipelineGraph) (acyclic : graph.Acyclic) (first second : Pruning)
    (fewer : ∀ node ∈ graph.nodes, second.isKept node.hash = true → first.isKept node.hash = true)
    (attributes others : AttributeMap)
    (resolved : ∀ node ∈ graph.keptNodes first, (attributes.lookup node.hash).isSome)
    (agree : ∀ node ∈ graph.keptNodes second, others.lookup node.hash = attributes.lookup node.hash) :
    ∃ plan replan : JobPlan,
      (⟨graph, first, attributes⟩ : AnnotatedPipeline).plan = .ok plan ∧
      (⟨graph, second, others⟩ : AnnotatedPipeline).plan = .ok replan ∧
      (plan.jobs.map PlannedJob.node).Perm (graph.keptNodes first) ∧
      (replan.jobs.map PlannedJob.node).Perm (graph.keptNodes second) ∧
      ∀ job ∈ replan.jobs, (∃ twin ∈ plan.jobs, job.node = twin.node) ∧
        ∀ twin ∈ plan.jobs, job.node = twin.node → job.stage ≤ twin.stage := by
  have fewer : graph.KeepsFewer first second := fewer
  have resolved : (⟨graph, first, attributes⟩ : AnnotatedPipeline).Resolved := resolved
  have reresolved : (⟨graph, second, others⟩ : AnnotatedPipeline).Resolved := by
    intro node kept
    rw [agree node kept]
    exact resolved node (fewer.keptNodes_subset kept)
  obtain ⟨jobs, ran, planned, nodes⟩ := AnnotatedPipeline.plan_spec acyclic resolved
  obtain ⟨rejobs, reran, replanned, renodes⟩ := AnnotatedPipeline.plan_spec acyclic reresolved
  have kept : ∀ job ∈ rejobs, job.node ∈ graph.keptNodes second := fun job member =>
    renodes.mem_iff.1 (List.mem_map_of_mem member)
  refine ⟨_, _, ran, reran, ((sortBy_perm _ _).map _).trans nodes, ((sortBy_perm _ _).map _).trans renodes, ?_⟩
  intro job member
  have listed := mem_sortBy.1 member
  constructor
  · obtain ⟨twin, known, same⟩ := List.mem_map.1 (nodes.mem_iff.2 (fewer.keptNodes_subset (kept job listed)))
    exact ⟨twin, mem_sortBy.2 known, same.symm⟩
  · intro twin known same
    exact fewer.stage_le acyclic agree planned nodes replanned kept job listed twin (mem_sortBy.1 known) same

open AnnotatedPipeline in
/-- Of two ways to the last build the second pruning leaves the straight one. -/
theorem stages_no_later_when_fewer_kept_twoWays :
    let first : Pruning := twoWays.hashes.map fun hash => (hash, ⟨.keep, []⟩)
    let second : Pruning := [([1], ⟨.keep, []⟩), ([4], ⟨.keep, []⟩)]
    let attributes : AttributeMap := twoWays.hashes.map fun hash => (hash, ⟨[[116]], Table.empty, 0, false⟩)
    ∃ plan replan : JobPlan,
      (⟨twoWays, first, attributes⟩ : AnnotatedPipeline).plan = .ok plan ∧
      (⟨twoWays, second, attributes⟩ : AnnotatedPipeline).plan = .ok replan ∧
      (plan.jobs.map PlannedJob.stage, replan.jobs.map PlannedJob.stage) = ([0, 1, 2, 3], [0, 1]) ∧
      ∀ job ∈ replan.jobs, ∀ twin ∈ plan.jobs, job.node = twin.node → job.stage ≤ twin.stage := by
  intro first second attributes
  obtain ⟨plan, replan, planned, replanned, _, _, later⟩ :=
    stages_no_later_when_fewer_kept twoWays acyclic_twoWays first second (by decide) attributes attributes (by decide)
      (fun _ _ => rfl)
  have stages : ((⟨twoWays, first, attributes⟩ : AnnotatedPipeline).plan.toOption.any fun plan =>
      (⟨twoWays, second, attributes⟩ : AnnotatedPipeline).plan.toOption.any fun replan =>
        (plan.jobs.map PlannedJob.stage, replan.jobs.map PlannedJob.stage) = ([0, 1, 2, 3], [0, 1])) = true := by
    decide +kernel
  rw [planned, replanned] at stages
  exact ⟨plan, replan, planned, replanned, of_decide_eq_true stages, fun job member => (later job member).2⟩

end PipelineGraph

end BuildPipeline
