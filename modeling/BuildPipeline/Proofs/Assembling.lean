import BuildPipeline.Plan.Assembly
import BuildPipeline.Proofs.FirstFailure
import BuildPipeline.Proofs.Planning
import BuildPipeline.Proofs.Walk

/-! What an assembled pipeline is made of: an acyclic graph, and the attributes of
its kept nodes, each resolved by itself. -/

namespace BuildPipeline

namespace SpecNode

/-- An order hint that a node got was set by one of the rules. -/
theorem exists_hint_of_resolveAttributes {node : SpecNode} {rules : List AttributeRule}
    {attributes : JobAttributes} (resolved : node.resolveAttributes rules = .ok attributes) :
    ∃ rule ∈ rules, ∃ hint, rule.attributes.orderHint = some hint ∧
      hint.natural? = some attributes.orderHint := by
  have set : ∀ (matching : List AttributeRule) (draft : AttributeDraft) (hint : Number),
      (matching.foldl (fun draft rule => draft.apply rule.attributes) draft).orderHint = some hint →
      draft.orderHint = some hint ∨ ∃ rule ∈ matching, rule.attributes.orderHint = some hint := by
    intro matching
    induction matching with
    | nil => exact fun _ _ same => .inl same
    | cons rule rest ih =>
      intro draft hint same
      rcases ih _ hint same with earlier | ⟨other, member, given⟩
      · rcases Option.or_eq_some_iff.1 earlier with given | ⟨_, before⟩
        · exact .inr ⟨rule, List.mem_cons_self, given⟩
        · exact .inl before
      · exact .inr ⟨other, List.mem_cons_of_mem _ member, given⟩
  simp only [resolveAttributes, AttributeDraft.finish] at resolved
  split at resolved
  · cases resolved
  · split at resolved
    · cases resolved
    next hint found =>
      simp only [Except.ok.injEq] at resolved
      subst resolved
      obtain ⟨number, given, whole⟩ := Option.bind_eq_some_iff.1 found
      rcases set _ _ number given with impossible | ⟨rule, member, given⟩
      · cases impossible
      · exact ⟨rule, mem_sortBy.1 (List.mem_filter.1 member).1, number, given, whole⟩

/-- A node that gets no attributes lacks one of the required ones. -/
theorem exists_field_of_resolveAttributes {node : SpecNode} {rules : List AttributeRule}
    {failure : PipelineError} (failed : node.resolveAttributes rules = .error failure) :
    ∃ field, failure = .missingAttribute node.hash node.label field := by
  simp only [resolveAttributes, AttributeDraft.finish] at failed
  split at failed
  · exact ⟨.tags, (Except.error.inj failed).symm⟩
  · split at failed
    · exact ⟨.orderHint, (Except.error.inj failed).symm⟩
    · cases failed

end SpecNode

theorem PipelineGraph.exists_node_of_resolveAttributes {graph : PipelineGraph} {pruning : Pruning}
    {config : CiConfig} {failure : PipelineError}
    (failed : graph.resolveAttributes pruning config = .error failure) :
    ∃ node ∈ graph.keptNodes pruning, ∃ field, failure = .missingAttribute node.hash node.label field := by
  obtain ⟨node, listed, stopped⟩ := exists_error_of_mapM failed
  rcases bind_eq_error_iff.1 stopped with own | ⟨_, _, impossible⟩
  · exact ⟨node, mem_sortBy.1 listed, SpecNode.exists_field_of_resolveAttributes own⟩
  · cases impossible

def PipelineGraph.keptByHash (graph : PipelineGraph) (pruning : Pruning) : List SpecNode :=
  sortBy (fun left right => textLe left.hash right.hash) (graph.keptNodes pruning)

namespace AnnotatedPipeline

variable {pipeline : AnnotatedPipeline}

/-- Attributes of exactly the kept nodes, resolved by the rules of a configuration. -/
structure AttributesOf (pipeline : AnnotatedPipeline) (config : CiConfig) : Prop where
  resolved : List.Forall₂
    (fun node entry => entry.1 = node.hash ∧ node.resolveAttributes config.compileRules = .ok entry.2)
    (pipeline.graph.keptByHash pipeline.pruning) pipeline.attributes

theorem attributesOf_of_resolveAttributes {graph : PipelineGraph} {pruning : Pruning} {attributes : AttributeMap}
    {config : CiConfig} (resolved : graph.resolveAttributes pruning config = .ok attributes) :
    (⟨graph, pruning, attributes⟩ : AnnotatedPipeline).AttributesOf config := by
  refine ⟨(forall₂_of_mapM resolved).imp fun node entry step => ?_⟩
  obtain ⟨found, own, step⟩ := bind_eq_ok_iff.1 step
  obtain rfl := Except.ok.inj step
  exact ⟨rfl, own⟩

theorem AttributesOf.keys {config : CiConfig} (attributes : pipeline.AttributesOf config) :
    pipeline.attributes.map Prod.fst =
      (pipeline.graph.keptByHash pipeline.pruning).map SpecNode.hash := by
  have same := attributes.resolved
  generalize pipeline.graph.keptByHash pipeline.pruning = kept, pipeline.attributes = entries at same
  induction same with
  | nil => rfl
  | cons first _ ih => rw [List.map_cons, List.map_cons, first.1, ih]

theorem AttributesOf.exists_node {config : CiConfig} (attributes : pipeline.AttributesOf config)
    {hash : Text} {found : JobAttributes} (listed : (hash, found) ∈ pipeline.attributes) :
    ∃ node ∈ pipeline.graph.keptNodes pipeline.pruning, node.hash = hash ∧
      node.resolveAttributes config.compileRules = .ok found := by
  obtain ⟨node, member, same, resolved⟩ : ∃ node ∈ pipeline.graph.keptByHash pipeline.pruning,
      hash = node.hash ∧ node.resolveAttributes config.compileRules = .ok found := by
    have both := attributes.resolved
    generalize pipeline.graph.keptByHash pipeline.pruning = kept, pipeline.attributes = entries at both listed
    induction both with
    | nil => cases listed
    | cons first _ ih =>
      rcases List.mem_cons.1 listed with rfl | later
      · exact ⟨_, List.mem_cons_self, first⟩
      · obtain ⟨node, member, rest⟩ := ih later
        exact ⟨node, List.mem_cons_of_mem _ member, rest⟩
  exact ⟨node, mem_sortBy.1 member, same.symm, resolved⟩

theorem AttributesOf.isResolved {config : CiConfig} (attributes : pipeline.AttributesOf config) :
    pipeline.Resolved := by
  intro node kept
  have listed : node.hash ∈ pipeline.attributes.map Prod.fst := by
    rw [attributes.keys]
    exact List.mem_map_of_mem (mem_sortBy.2 kept)
  obtain ⟨found, known⟩ := exists_lookup_of_mem listed
  simp [known]

end AnnotatedPipeline

namespace LinkedStack

variable {stack : LinkedStack} {config : CiConfig} {options : PruneOptions} {signals : PruneSignals}

theorem assemble_of_graph {graph : PipelineGraph} (made : stack.graph = .ok graph) (config : CiConfig)
    (options : PruneOptions) (signals : PruneSignals) :
    stack.assemble config options signals =
      (graph.resolveAttributes (graph.prune options signals []) config).map
        (AnnotatedPipeline.mk graph (graph.prune options signals [])) := by
  rw [assemble, made]
  cases resolved : graph.resolveAttributes (graph.prune options signals []) config with
  | error failure => simp only [bind, Except.bind, resolved, Except.map]
  | ok attributes => simp only [bind, Except.bind, resolved, Except.map, pure, Except.pure]

theorem assemble_of_error {failure : PipelineError} (stopped : stack.graph = .error failure) (config : CiConfig)
    (options : PruneOptions) (signals : PruneSignals) : stack.assemble config options signals = .error failure := by
  rw [assemble, stopped]
  rfl

/-- Once there is a graph, assembly fails only for want of a required attribute. -/
theorem exists_node_of_assemble {graph : PipelineGraph} (made : stack.graph = .ok graph)
    {failure : PipelineError} (failed : stack.assemble config options signals = .error failure) :
    ∃ node ∈ graph.keptNodes (graph.prune options signals []), ∃ field,
      failure = .missingAttribute node.hash node.label field := by
  rw [assemble_of_graph made] at failed
  cases resolved : graph.resolveAttributes (graph.prune options signals []) config with
  | error other =>
    rw [resolved] at failed
    obtain rfl := Except.error.inj failed
    exact PipelineGraph.exists_node_of_resolveAttributes resolved
  | ok attributes =>
    rw [resolved] at failed
    cases failed

/-- Attributes for every node are enough, whatever is pruned. -/
theorem exists_assemble {graph : PipelineGraph} (made : stack.graph = .ok graph)
    (resolves : ∀ node ∈ graph.nodes, ∃ attributes, node.resolveAttributes config.compileRules = .ok attributes)
    (options : PruneOptions) (signals : PruneSignals) :
    ∃ attributes, stack.assemble config options signals = .ok ⟨graph, graph.prune options signals [], attributes⟩ := by
  rw [assemble_of_graph made]
  cases resolved : graph.resolveAttributes (graph.prune options signals []) config with
  | ok attributes => exact ⟨attributes, rfl⟩
  | error failure =>
    obtain ⟨node, listed, failed⟩ := exists_error_of_mapM resolved
    have kept := List.mem_filter.1 (mem_sortBy.1 listed)
    obtain ⟨attributes, own⟩ := resolves node kept.1
    simp [own, bind, Except.bind, pure, Except.pure] at failed

/-- Assembly that succeeds gives an acyclic graph with attributes for what is kept. -/
theorem assemble_spec {pipeline : AnnotatedPipeline}
    (made : stack.assemble config options signals = .ok pipeline) :
    stack.graph = .ok pipeline.graph ∧ pipeline.graph.Acyclic ∧
      pipeline.pruning = pipeline.graph.prune options signals [] ∧ pipeline.AttributesOf config := by
  obtain ⟨graph, built, made⟩ := bind_eq_ok_iff.1 made
  obtain ⟨attributes, resolved, made⟩ := bind_eq_ok_iff.1 made
  obtain rfl := Except.ok.inj made
  exact ⟨built, acyclic_of_graph built, rfl, AnnotatedPipeline.attributesOf_of_resolveAttributes resolved⟩

theorem assembled_plan {pipeline : AnnotatedPipeline}
    (made : stack.assemble config options signals = .ok pipeline) :
    ∃ jobs, pipeline.plan = .ok ⟨sortBy PlannedJob.le jobs, stagesOf (sortBy PlannedJob.le jobs)⟩ ∧
      Planned pipeline jobs ∧
      (jobs.map PlannedJob.node).Perm (pipeline.graph.keptNodes pipeline.pruning) := by
  obtain ⟨_, acyclic, _, attributes⟩ := assemble_spec made
  exact AnnotatedPipeline.plan_spec acyclic attributes.isResolved

end LinkedStack

end BuildPipeline
