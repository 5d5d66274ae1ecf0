import BuildPipeline.Proofs.Planning

/-! The needs that a plan gives its jobs, against the dependency paths of the
unpruned graph: pruned builds drop out and the order among kept ones stays. -/

namespace BuildPipeline
open Relation

namespace PipelineGraph

/-- The memo after a run of searches, each handed what the one before left. -/
def memoAfter (graph : PipelineGraph) (pruning : Pruning) (searches : List Text) : BridgeMemo :=
  searches.foldl (fun memo hash => (graph.bridgedDependencies pruning memo hash).2) []

theorem memoSound_memoAfter {graph : PipelineGraph} (acyclic : graph.Acyclic) (pruning : Pruning)
    (searches : List Text) : graph.MemoSound pruning (graph.memoAfter pruning searches) := by
  have run : ∀ memo, graph.MemoSound pruning memo → graph.MemoSound pruning
      (searches.foldl (fun memo hash => (graph.bridgedDependencies pruning memo hash).2) memo) := by
    induction searches with
    | nil => exact fun _ sound => sound
    | cons hash rest ih => exact fun _ sound => ih _ (bridgedDependencies_spec acyclic sound hash).1
  exact run [] memoSound_nil

end PipelineGraph

namespace JobPlan

def Requires (plan : JobPlan) (dependent need : Text) : Prop :=
  ∃ job ∈ plan.jobs, job.node.hash = dependent ∧ need ∈ job.needs

end JobPlan

namespace AnnotatedPipeline

variable {pipeline : AnnotatedPipeline} {plan : JobPlan}

theorem requires_iff (acyclic : pipeline.graph.Acyclic) (planned : pipeline.plan = .ok plan)
    {dependent need : Text} :
    plan.Requires dependent need ↔
      (dependent ∈ pipeline.graph.hashes ∧ pipeline.pruning.isKept dependent = true) ∧
        pipeline.graph.Needs pipeline.pruning dependent need := by
  obtain ⟨jobs, same, order, nodes⟩ := plan_spec acyclic ((exists_plan_iff acyclic).1 ⟨plan, planned⟩)
  obtain rfl := Except.ok.inj (planned.symm.trans same)
  constructor
  · rintro ⟨job, member, rfl, needed⟩
    have listed := mem_sortBy.1 member
    have node := List.mem_filter.1 (nodes.mem_iff.1 (List.mem_map_of_mem listed))
    refine ⟨⟨List.mem_map_of_mem node.1, node.2⟩, ?_⟩
    rw [(order.staged listed).needs] at needed
    exact (PipelineGraph.mem_needsOf acyclic).1 needed
  · rintro ⟨⟨known, kept⟩, needed⟩
    obtain ⟨node, listed, rfl⟩ := List.mem_map.1 known
    obtain ⟨job, member, rfl⟩ := List.mem_map.1 (nodes.mem_iff.2 (List.mem_filter.2 ⟨listed, kept⟩))
    refine ⟨job, mem_sortBy.2 member, rfl, ?_⟩
    rw [(order.staged member).needs]
    exact (PipelineGraph.mem_needsOf acyclic).2 needed

/-- Needs lead from kept builds to kept builds, so a path of them stays in the plan. -/
theorem transGen_requires_iff (acyclic : pipeline.graph.Acyclic) (planned : pipeline.plan = .ok plan)
    {start last : Text} (known : start ∈ pipeline.graph.hashes) (kept : pipeline.pruning.isKept start = true) :
    TransGen plan.Requires start last ↔ TransGen (pipeline.graph.Needs pipeline.pruning) start last := by
  constructor
  · exact TransGen.mono (fun _ _ (edge : plan.Requires _ _) => ((requires_iff acyclic planned).1 edge).2) _ _
  · intro path
    induction path with
    | single edge => exact .single ((requires_iff acyclic planned).2 ⟨⟨known, kept⟩, edge⟩)
    | tail front edge ih =>
      obtain ⟨source, need⟩ : ∃ source, pipeline.graph.Needs pipeline.pruning source _ := by
        cases front with
        | single edge => exact ⟨_, edge⟩
        | tail _ edge => exact ⟨_, edge⟩
      have inside := PipelineGraph.mem_hashes_of_transGen need.2.transGen
      exact ih.tail ((requires_iff acyclic planned).2 ⟨⟨inside, need.1⟩, edge⟩)

/-- The needs of a build are the nearest kept builds behind it, each once and in
order, whatever was searched for before. The jobs of a plan wait for one another
just as their builds depend on one another in the unpruned graph. -/
theorem planned_needs_bridge_pruned (graph : PipelineGraph) (acyclic : graph.Acyclic) (pruning : Pruning) :
    (∀ searches, ∀ node ∈ graph.nodes,
      let needs := (graph.bridgedDependencies pruning (graph.memoAfter pruning searches) node.hash).1
      needs.Nodup ∧ needs.Pairwise (graph.hashLe · · = true) ∧
        (∀ need, need ∈ needs ↔
          need ∈ graph.hashes ∧ pruning.isKept need = true ∧ graph.Bridge pruning node.hash need) ∧
        needs = (graph.bridgedDependencies pruning [] node.hash).1) ∧
    ∀ attributes, let pipeline : AnnotatedPipeline := ⟨graph, pruning, attributes⟩
      ((∃ plan, pipeline.plan = .ok plan) ↔ pipeline.Resolved) ∧
      ∀ plan, pipeline.plan = .ok plan →
        (∀ job ∈ plan.jobs, job.needs = (graph.bridgedDependencies pruning [] job.node.hash).1) ∧
        ∀ start ∈ graph.keptNodes pruning, ∀ last ∈ graph.keptNodes pruning,
          (TransGen plan.Requires start.hash last.hash ↔ TransGen graph.DependsOn start.hash last.hash) := by
  refine ⟨fun searches node _ => ?_, fun attributes => ⟨exists_plan_iff acyclic, ?_⟩⟩
  · have sound := graph.memoSound_memoAfter acyclic pruning searches
    obtain ⟨_, all, sorted⟩ := PipelineGraph.bridgedDependencies_spec acyclic sound node.hash
    refine ⟨all.unique, sorted, fun need => ?_, PipelineGraph.bridgedDependencies_eq_needsOf acyclic sound node.hash⟩
    rw [all.mem_iff]
    exact ⟨fun needed => ⟨PipelineGraph.mem_hashes_of_transGen needed.2.transGen, needed⟩, And.right⟩
  · intro plan planned
    refine ⟨?_, ?_⟩
    · obtain ⟨jobs, same, order, _⟩ := plan_spec acyclic ((exists_plan_iff acyclic).1 ⟨plan, planned⟩)
      obtain rfl := Except.ok.inj (planned.symm.trans same)
      exact fun job member => (order.staged (mem_sortBy.1 member)).needs
    · intro start first last second
      obtain ⟨listed, kept⟩ := List.mem_filter.1 first
      rw [transGen_requires_iff acyclic planned (List.mem_map_of_mem listed) kept]
      exact PipelineGraph.transGen_needs_iff (List.mem_filter.1 second).2

/-- Four builds of which the first needs the last, past two between them. -/
def twoWays : PipelineGraph where
  nodes :=
    let node (hash : Text) (dependencies : List Text) : SpecNode :=
      ⟨hash, [112], [49], Table.empty, none, none, none, false, dependencies⟩
    [node [1] [[2], [3]], node [2] [[4]], node [3] [[2]], node [4] []]
  roots := [[1]]
  hashes_unique := by decide
  dependencies_known := by decide
  roots_known := by decide

theorem acyclic_twoWays : twoWays.Acyclic := by
  refine PipelineGraph.acyclic_of_rank (fun hash => ([[4], [2], [3], [1]] : List Text).idxOf hash) ?_
  have lowers : ∀ node ∈ twoWays.nodes, ∀ dependency ∈ node.dependencies,
      ([[4], [2], [3], [1]] : List Text).idxOf dependency < ([[4], [2], [3], [1]] : List Text).idxOf node.hash := by
    decide
  intro dependent dependency edge
  obtain ⟨node, listed, rfl, named⟩ := edge.exists_node
  exact lowers node listed dependency named

theorem planned_needs_bridge_pruned_twoWays :
    let pruning : Pruning := [([1], ⟨.keep, []⟩), ([4], ⟨.keep, []⟩)]
    let needs := (twoWays.bridgedDependencies pruning (twoWays.memoAfter pruning [[3], [1]]) [1]).1
    twoWays.Acyclic ∧ needs.Nodup ∧ [4] ∈ needs := by
  intro pruning needs
  obtain ⟨found, _⟩ := planned_needs_bridge_pruned twoWays acyclic_twoWays pruning
  obtain ⟨unique, _, exact', _⟩ := found [[3], [1]] _ List.mem_cons_self
  refine ⟨acyclic_twoWays, unique, (exact' [4]).2 ⟨by decide, by decide, ?_⟩⟩
  have first : [2] ∈ twoWays.dependenciesOf [1] := by decide
  have second : [4] ∈ twoWays.dependenciesOf [2] := by decide
  exact .past first (by decide) (.direct second)

end AnnotatedPipeline

end BuildPipeline
