import BuildPipeline.Graph.Basic
import BuildPipeline.Proofs.Tables

/-! What an index of dependents holds after each insertion. In the end a node stands
under a dependency as often as it names it. -/

namespace BuildPipeline

namespace DependentIndex

variable {nodes : List SpecNode} {hash : Text}

/-- The nodes that name `hash` as a dependency, as often as they name it. -/
def namers (nodes : List SpecNode) (hash : Text) : List Text :=
  nodes.flatMap fun node => (node.dependencies.filter (· = hash)).map fun _ => node.hash

theorem lookup_enterNode (index : DependentIndex) (node : SpecNode) (hash : Text) :
    (enterNode index node).lookup hash =
      (index.lookup hash).map (· ++ (node.dependencies.filter (· = hash)).map fun _ => node.hash) := by
  unfold enterNode
  induction node.dependencies generalizing index with
  | nil => simp
  | cons dependency rest ih =>
    rw [List.foldl_cons, ih, enter, lookup_updated (· ++ [node.hash]), Option.map_map]
    congr 1
    funext known
    by_cases same : dependency = hash
    · simp [same]
    · simp [same, Ne.symm same]

theorem lookup_foldl_enterNode (nodes : List SpecNode) (index : DependentIndex) (hash : Text) :
    (nodes.foldl enterNode index).lookup hash = (index.lookup hash).map (· ++ namers nodes hash) := by
  induction nodes generalizing index with
  | nil => simp [namers]
  | cons node rest ih =>
    rw [List.foldl_cons, ih, lookup_enterNode, Option.map_map]
    simp [Function.comp_def, namers]

theorem dependents_ofNodes (closed : ∀ node ∈ nodes, ∀ hash ∈ node.dependencies, hash ∈ nodes.map SpecNode.hash)
    (hash : Text) : (ofNodes nodes).dependents hash = sortTexts (namers nodes hash) := by
  have empty : (nodes.map fun node => (node.hash, ([] : List Text))).lookup hash =
      if hash ∈ nodes.map SpecNode.hash then some [] else none := by
    clear closed
    induction nodes with
    | nil => rfl
    | cons node rest ih =>
      rw [List.map_cons, lookup_cons_eq, ih]
      by_cases same : hash = node.hash <;> simp [same]
  rw [dependents, ofNodes, lookup_mapValues sortTexts, lookup_foldl_enterNode, empty]
  split
  next => rfl
  next unknown =>
    have none : namers nodes hash = [] := by
      refine List.eq_nil_iff_forall_not_mem.2 fun dependent entered => unknown ?_
      obtain ⟨node, listed, named⟩ := List.mem_flatMap.1 entered
      obtain ⟨dependency, member, _⟩ := List.mem_map.1 named
      obtain ⟨member, same⟩ := List.mem_filter.1 member
      exact of_decide_eq_true same ▸ closed node listed dependency member
    rw [none]
    rfl

theorem count_namers (unique : (nodes.map SpecNode.hash).Nodup) (dependent hash : Text) :
    (namers nodes hash).count dependent =
      (((nodes.find? (·.hash = dependent)).map SpecNode.dependencies).getD []).count hash := by
  induction nodes with
  | nil => rfl
  | cons node rest ih =>
    obtain ⟨alone, unique⟩ := List.nodup_cons.1 unique
    have own : ((node.dependencies.filter (· = hash)).map fun _ => node.hash).count dependent =
        if node.hash = dependent then node.dependencies.count hash else 0 := by
      rw [List.map_const', List.count_replicate, ← List.countP_eq_length_filter]
      simp [List.count, beq_eq_decide]
    rw [namers, List.flatMap_cons, ← namers, List.count_append, own, ih unique, List.find?_cons]
    by_cases same : node.hash = dependent
    · subst same
      have absent : rest.find? (·.hash = node.hash) = none := by
        refine List.find?_eq_none.2 fun other listed equal => alone ?_
        exact of_decide_eq_true equal ▸ List.mem_map_of_mem listed
      simp [absent]
    · simp [same]

/-- Sets of dependencies enter nobody twice. -/
theorem nodup_namers (unique : (nodes.map SpecNode.hash).Nodup) (sets : ∀ node ∈ nodes, node.dependencies.Nodup)
    (hash : Text) : (namers nodes hash).Nodup := by
  refine List.nodup_iff_count_le_one.2 fun dependent => ?_
  rw [count_namers unique]
  cases found : nodes.find? (·.hash = dependent) with
  | none => simp
  | some node =>
    have set := sets node (List.mem_of_find?_eq_some found)
    simpa using List.nodup_iff_count_le_one.1 set hash

end DependentIndex

namespace PipelineGraph

variable {graph : PipelineGraph}

theorem dependentsOf_eq (graph : PipelineGraph) (hash : Text) :
    graph.dependentsOf hash = sortTexts (DependentIndex.namers graph.nodes hash) := by
  rw [dependentsOf, graph.index_eq, DependentIndex.dependents_ofNodes graph.dependencies_known]

/-- Dependents and dependencies name each other equally often. -/
theorem count_dependentsOf (graph : PipelineGraph) (dependent hash : Text) :
    (graph.dependentsOf hash).count dependent = (graph.dependenciesOf dependent).count hash := by
  rw [dependentsOf_eq, sortTexts, (sortBy_perm _ _).count_eq, DependentIndex.count_namers graph.hashes_unique]
  rfl

end PipelineGraph

end BuildPipeline
