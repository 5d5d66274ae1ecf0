import BuildPipeline.Plan.Assembly
import BuildPipeline.Proofs.Countdown
import BuildPipeline.Proofs.PolicyLoop
import BuildPipeline.Proofs.Renaming
import Mathlib.Data.List.Find

/-! Graphs with the same nodes and roots. The order in which roots were named is
lost on everything that is made of a graph, and renamed tables give such graphs. -/

namespace BuildPipeline

/-- The same nodes in the same order, and one set of roots. -/
structure PipelineGraph.Agrees (left right : PipelineGraph) : Prop where
  nodes : left.nodes = right.nodes
  roots : ∀ hash, hash ∈ left.roots ↔ hash ∈ right.roots

namespace PipelineGraph

variable {left right : PipelineGraph}

theorem nodes_eq_of_mem_iff (sortedLeft : left.nodes.Pairwise (SpecNode.le · · = true))
    (sortedRight : right.nodes.Pairwise (SpecNode.le · · = true))
    (same : ∀ node, node ∈ left.nodes ↔ node ∈ right.nodes) : left.nodes = right.nodes := by
  refine eq_of_perm_of_sorted ?_ ?_ sortedLeft sortedRight
  · intro node listed twin also forward backward
    exact eq_of_hash_eq listed also (SpecNode.hash_eq_of_le forward backward)
  · exact perm_of_mem_iff (.of_map _ left.hashes_unique) (.of_map _ right.hashes_unique) same

namespace Agrees

variable (agrees : left.Agrees right)
include agrees

theorem hashes_eq : left.hashes = right.hashes := by
  rw [hashes, hashes, agrees.nodes]

theorem get?_eq : left.get? = right.get? := by
  funext hash
  rw [get?, get?, agrees.nodes]

theorem dependenciesOf_eq : left.dependenciesOf = right.dependenciesOf := by
  funext hash
  rw [dependenciesOf, dependenciesOf, agrees.get?_eq]

theorem dependentsOf_eq : left.dependentsOf = right.dependentsOf := by
  funext hash
  rw [dependentsOf, dependentsOf, left.index_eq, right.index_eq, agrees.nodes]

theorem downward_eq : left.downward = right.downward := by
  simp only [downward, agrees.hashes_eq, agrees.dependenciesOf_eq]

theorem upward_eq : left.upward = right.upward := by
  simp only [upward, agrees.hashes_eq, agrees.dependentsOf_eq]

theorem closure_eq : left.closure = right.closure := by
  funext hash
  have known : left.contains = right.contains := by
    funext other
    rw [contains, contains, agrees.get?_eq]
  rw [closure, closure, agrees.downward_eq, known]

theorem topologicalOrder_eq : left.topologicalOrder = right.topologicalOrder := by
  rw [left.topologicalOrder_eq, right.topologicalOrder_eq, agrees.nodes]

/-- Roots count only as members, where a negative depth leaves nothing but changed roots. -/
theorem affected_eq (changed : List Text) (depth : Option Number) :
    left.affected changed depth = right.affected changed depth := by
  have matched : left.matchedBy changed = right.matchedBy changed := by
    rw [matchedBy, matchedBy, agrees.nodes]
  have rooted : ∀ hashes : List Text, hashes.filter (· ∈ left.roots) = hashes.filter (· ∈ right.roots) :=
    fun hashes => List.filter_congr fun hash _ => decide_eq_decide.2 (agrees.roots hash)
  simp only [affected, reachedBy, matched, rooted, agrees.upward_eq, agrees.closure_eq]

theorem decide_eq (options : PruneOptions) (signals : PruneSignals) :
    Pruning.decide left options signals = Pruning.decide right options signals := by
  have applies : ∀ policy ∈ PruningPolicy.all,
      policy.applies left signals options = policy.applies right signals options := by
    simp [PruningPolicy.all, PruningPolicy.broken, PruningPolicy.available, PruningPolicy.unaffected,
      PruningPolicy.external, agrees.affected_eq]
  funext node
  have found := List.find?_congr fun policy (listed : policy ∈ PruningPolicy.all.filter (·.enabled options)) =>
    congrFun (applies policy (List.mem_of_mem_filter listed)) node
  simp only [Pruning.decide, found]

theorem prune_eq (options : PruneOptions) (signals : PruneSignals) (previous : Pruning) :
    left.prune options signals previous = right.prune options signals previous := by
  rw [PipelineGraph.prune_eq, PipelineGraph.prune_eq, agrees.decide_eq, agrees.nodes]

theorem resolveAttributes_eq (pruning : Pruning) {config other : CiConfig}
    (same : ∀ node : SpecNode,
      node.resolveAttributes config.compileRules = node.resolveAttributes other.compileRules) :
    left.resolveAttributes pruning config = right.resolveAttributes pruning other := by
  simp only [resolveAttributes, keptNodes, agrees.nodes, same]

theorem nearestKept_eq (pruning : Pruning) (available : List Text) (memo : BridgeMemo) (hash : Text) :
    left.nearestKept pruning available memo hash = right.nearestKept pruning available memo hash := by
  fun_induction nearestKept left pruning available memo hash with
  | case1 available memo hash kept => rw [nearestKept, if_pos kept]
  | case2 available memo hash pruned found known => rw [nearestKept, if_neg pruned, known]
  | case3 available memo hash pruned unknown inside _ found after searched ih =>
    simp only [ih, agrees.dependenciesOf_eq] at searched
    rw [nearestKept, if_neg pruned, unknown]
    simp only [dif_pos inside, searched]
  | case4 available memo hash pruned unknown outside =>
    rw [nearestKept, if_neg pruned, unknown]
    simp only [dif_neg outside]

theorem bridgedDependencies_eq (pruning : Pruning) (memo : BridgeMemo) (hash : Text) :
    left.bridgedDependencies pruning memo hash = right.bridgedDependencies pruning memo hash := by
  have ordered : left.hashLe = right.hashLe := by
    funext first second
    rw [hashLe, hashLe, agrees.get?_eq]
  simp only [bridgedDependencies, agrees.dependenciesOf_eq, agrees.hashes_eq, agrees.nearestKept_eq, ordered]

theorem plan_eq (pruning : Pruning) (attributes : AttributeMap) :
    (AnnotatedPipeline.mk left pruning attributes).plan = (AnnotatedPipeline.mk right pruning attributes).plan := by
  have added : PlanDraft.add ⟨left, pruning, attributes⟩ = PlanDraft.add ⟨right, pruning, attributes⟩ := by
    funext draft node
    simp only [PlanDraft.add, agrees.bridgedDependencies_eq]
  simp only [AnnotatedPipeline.plan, agrees.topologicalOrder_eq, added]

end Agrees

end PipelineGraph

namespace LinkedStack
open Relation

variable {stack other : LinkedStack} {build : GraphBuild} {graph twin : PipelineGraph} {rename : Text → Text}

theorem node_eq_of_payload_eq (plain : stack.PlainVariants) {left right : Text} {tree twin : SpecTree}
    (unfolds : stack.Unfolds left tree) (also : stack.Unfolds right twin) (same : tree.payload = twin.payload) :
    tree.node = twin.node := by
  cases unfolds with
  | @entry _ entry below found _ =>
    cases also with
    | @entry _ other behind again _ =>
      have first := plain _ (Table.get?_eq_some_iff.1 found)
      have second := plain _ (Table.get?_eq_some_iff.1 again)
      rw [SpecTree.payload, SpecTree.payload, SpecContent.payload_eq_iff,
        SpecContent.samePayload_iff first second] at same
      rw [SpecTree.node, SpecTree.node]
      exact SpecNode.ofContent_eq first second same.1 same.2

/-- The nodes of a graph are those of the reachable trees, whichever of the like ones was kept. -/
theorem mem_nodes_iff (plain : stack.PlainVariants) (injective : Set.InjOn fingerprint stack.payloads)
    (walked : stack.walk = .ok build) (nodes : graph.nodes.Perm build.nodes) {node : SpecNode} :
    node ∈ graph.nodes ↔ ∃ key tree, stack.Reachable key ∧ stack.Unfolds key tree ∧ tree.node = node := by
  constructor
  · intro listed
    obtain ⟨key, tree, reachable, unfolds, rfl⟩ := exists_key_of_mem_nodes walked nodes listed
    exact ⟨key, tree, reachable, unfolds, rfl⟩
  · rintro ⟨key, tree, reachable, unfolds, rfl⟩
    have hashed := (mem_hashes_iff walked nodes).2 ⟨key, reachable, rfl⟩
    obtain ⟨kept, listed, same⟩ := PipelineGraph.mem_hashes.1 hashed
    obtain ⟨keeper, twin, reached, also, rfl⟩ := exists_key_of_mem_nodes walked nodes listed
    rw [← hash_eq_finishedHash walked reachable unfolds, twin.hash_node] at same
    have payloads := (hash_eq_iff_payload_eq injective reached reachable also unfolds).1 same
    rwa [← node_eq_of_payload_eq plain also unfolds payloads]

theorem mem_roots_iff (walked : stack.walk = .ok build)
    (roots : graph.roots = distinct (stack.roots.filterMap build.hashOf?)) {hash : Text} :
    hash ∈ graph.roots ↔ ∃ root ∈ stack.roots, ∃ tree, stack.Unfolds root tree ∧ tree.hash = hash := by
  rw [roots_eq walked roots, mem_distinct, List.mem_map]
  refine exists_congr fun root => and_congr_right fun listed => ?_
  have reachable : stack.Reachable root := ⟨root, listed, .refl⟩
  constructor
  · rintro rfl
    exact exists_tree_of_reachable walked reachable
  · rintro ⟨tree, unfolds, rfl⟩
    exact (hash_eq_finishedHash walked reachable unfolds).symm

namespace RenamedBy

/-- Every reachable tree of the second stack is one of the first. -/
theorem exists_unfolds (renamed : stack.RenamedBy rename other) (plain : stack.PlainVariants)
    (plainOther : other.PlainVariants) (walked : stack.walk = .ok build) {key : Text} {twin : SpecTree}
    (reachable : stack.Reachable key) (unfolds : other.Unfolds (rename key) twin) :
    ∃ tree, stack.Unfolds key tree ∧ twin.payload = tree.payload ∧ twin.node = tree.node := by
  obtain ⟨tree, also, _⟩ := exists_tree_of_reachable walked reachable
  obtain ⟨again, unfoldsAgain, payload, node⟩ := renamed.unfolds plain plainOther also
  rw [unfolds.unique unfoldsAgain]
  exact ⟨tree, also, payload, node⟩

theorem payloads_subset (renamed : stack.RenamedBy rename other) (plain : stack.PlainVariants)
    (plainOther : other.PlainVariants) (walked : stack.walk = .ok build) : other.payloads ⊆ stack.payloads := by
  rintro _ ⟨last, twin, reached, unfolds, rfl⟩
  obtain ⟨key, rfl, reachable⟩ := renamed.exists_reachable reached
  obtain ⟨tree, also, payload, _⟩ := renamed.exists_unfolds plain plainOther walked reachable unfolds
  exact ⟨key, tree, reachable, also, payload⟩

theorem exists_node_iff (renamed : stack.RenamedBy rename other) (plain : stack.PlainVariants)
    (plainOther : other.PlainVariants) (walked : stack.walk = .ok build) {node : SpecNode} :
    (∃ key tree, stack.Reachable key ∧ stack.Unfolds key tree ∧ tree.node = node) ↔
      ∃ key tree, other.Reachable key ∧ other.Unfolds key tree ∧ tree.node = node := by
  constructor
  · rintro ⟨key, tree, reachable, unfolds, rfl⟩
    obtain ⟨twin, also, _, same⟩ := renamed.unfolds plain plainOther unfolds
    exact ⟨rename key, twin, renamed.reachable reachable, also, same⟩
  · rintro ⟨last, twin, reached, unfolds, rfl⟩
    obtain ⟨key, rfl, reachable⟩ := renamed.exists_reachable reached
    obtain ⟨tree, also, _, same⟩ := renamed.exists_unfolds plain plainOther walked reachable unfolds
    exact ⟨key, tree, reachable, also, same.symm⟩

theorem exists_root_iff (renamed : stack.RenamedBy rename other) (plain : stack.PlainVariants)
    (plainOther : other.PlainVariants) (walked : stack.walk = .ok build) {hash : Text} :
    (∃ root ∈ stack.roots, ∃ tree, stack.Unfolds root tree ∧ tree.hash = hash) ↔
      ∃ root ∈ other.roots, ∃ tree, other.Unfolds root tree ∧ tree.hash = hash := by
  constructor
  · rintro ⟨root, listed, tree, unfolds, rfl⟩
    obtain ⟨twin, also, _, same⟩ := renamed.unfolds plain plainOther unfolds
    refine ⟨rename root, (renamed.roots _).2 ⟨root, listed, rfl⟩, twin, also, ?_⟩
    rw [← twin.hash_node, same, tree.hash_node]
  · rintro ⟨start, listed, twin, unfolds, rfl⟩
    obtain ⟨root, first, rfl⟩ := (renamed.roots start).1 listed
    obtain ⟨tree, also, _, same⟩ := renamed.exists_unfolds plain plainOther walked ⟨root, first, .refl⟩ unfolds
    refine ⟨root, first, tree, also, ?_⟩
    rw [← tree.hash_node, ← same, twin.hash_node]

/-- Renamed stacks without cycles have graphs that agree. -/
theorem exists_agreeing (renamed : stack.RenamedBy rename other) (plain : stack.PlainVariants)
    (plainOther : other.PlainVariants) (injective : Set.InjOn fingerprint stack.payloads)
    (acyclic : stack.Acyclic) :
    ∃ graph twin, stack.graph = .ok graph ∧ other.graph = .ok twin ∧ graph.Agrees twin := by
  obtain ⟨build, walked⟩ := acyclic.exists_walk
  obtain ⟨again, walkedAgain⟩ := (renamed.acyclic_iff.1 acyclic).exists_walk
  obtain ⟨graph, made, nodes, roots, sorted⟩ := exists_graph_of_walk walked
  obtain ⟨twin, madeAgain, nodesAgain, rootsAgain, sortedAgain⟩ := exists_graph_of_walk walkedAgain
  have injectiveOther := injective.mono (renamed.payloads_subset plain plainOther walked)
  refine ⟨graph, twin, made, madeAgain, ?_, fun hash => ?_⟩
  · refine PipelineGraph.nodes_eq_of_mem_iff sorted sortedAgain fun node => ?_
    rw [mem_nodes_iff plain injective walked nodes, mem_nodes_iff plainOther injectiveOther walkedAgain nodesAgain]
    exact renamed.exists_node_iff plain plainOther walked
  · rw [mem_roots_iff walked roots, mem_roots_iff walkedAgain rootsAgain]
    exact renamed.exists_root_iff plain plainOther walked

end RenamedBy

end LinkedStack

end BuildPipeline
