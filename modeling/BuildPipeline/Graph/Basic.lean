import BuildPipeline.Error
import BuildPipeline.Graph.Dependents
import BuildPipeline.Graph.Reach

/-! The pipeline graph: builds by fingerprint, edges from a dependent to its
dependencies, and an index of the same edges turned around. Nodes are listed by name
and then fingerprint. -/

namespace BuildPipeline

structure PipelineGraph where
  nodes : List SpecNode
  roots : List Text
  index : DependentIndex := .ofNodes nodes
  hashes_unique : (nodes.map SpecNode.hash).Nodup
  dependencies_known : ∀ node ∈ nodes, ∀ hash ∈ node.dependencies, hash ∈ nodes.map SpecNode.hash
  roots_known : ∀ hash ∈ roots, hash ∈ nodes.map SpecNode.hash
  index_eq : index = .ofNodes nodes := by rfl

namespace PipelineGraph

/-- The last of the later nodes with the fingerprint of a node, or the node itself. -/
def latest (node : SpecNode) (later : List SpecNode) : SpecNode :=
  (later.reverse.find? (·.hash = node.hash)).getD node

/-- Of nodes with one fingerprint the last takes the place of the first. -/
def distinctNodes : List SpecNode → List SpecNode
  | [] => []
  | node :: rest => latest node rest :: (distinctNodes rest).filter (·.hash ≠ node.hash)

/-- The first reference out of a list of nodes, dependencies before roots. -/
def firstDangling? (nodes : List SpecNode) (roots : List Text) : Option PipelineError :=
  let hashes := nodes.map SpecNode.hash
  let dependency := nodes.findSome? fun node =>
    (node.dependencies.find? (· ∉ hashes)).map (.unknownDependency node.name node.hash)
  dependency.or ((roots.find? (· ∉ hashes)).map .unknownRoot)

@[simp] theorem hash_latest (node : SpecNode) (later : List SpecNode) : (latest node later).hash = node.hash := by
  unfold latest
  cases found : later.reverse.find? (·.hash = node.hash) with
  | none => rfl
  | some other => simpa using List.find?_some found

theorem nodup_distinctNodes (nodes : List SpecNode) :
    ((distinctNodes nodes).map SpecNode.hash).Nodup := by
  induction nodes with
  | nil => exact .nil
  | cons node rest ih =>
    simp only [distinctNodes, List.map_cons, List.nodup_cons, hash_latest]
    refine ⟨by simp, ?_⟩
    exact List.Sublist.nodup (List.filter_sublist.map SpecNode.hash) ih

theorem known_of_firstDangling? {nodes : List SpecNode} {roots : List Text}
    (closed : firstDangling? nodes roots = none) :
    (∀ node ∈ nodes, ∀ hash ∈ node.dependencies, hash ∈ nodes.map SpecNode.hash) ∧
      ∀ hash ∈ roots, hash ∈ nodes.map SpecNode.hash := by
  simp only [firstDangling?, Option.or_eq_none_iff, List.findSome?_eq_none_iff,
    Option.map_eq_none_iff, List.find?_eq_none] at closed
  refine ⟨fun node listed hash dependency => ?_, fun hash root => ?_⟩
  · simpa using closed.1 node listed hash dependency
  · simpa using closed.2 hash root

/-- Fails on the first dependency or root that no node has. -/
def ofNodes? (given : List SpecNode) (roots : List Text) : Except PipelineError PipelineGraph :=
  let nodes := distinctNodes given
  match dangling : firstDangling? nodes roots with
  | some error => .error error
  | none =>
    have known := known_of_firstDangling? dangling
    have listed (hash : Text) :
        hash ∈ (sortBy SpecNode.le nodes).map SpecNode.hash ↔ hash ∈ nodes.map SpecNode.hash :=
      ((sortBy_perm SpecNode.le nodes).map SpecNode.hash).mem_iff
    .ok {
      nodes := sortBy SpecNode.le nodes
      roots := distinct roots
      hashes_unique :=
        ((sortBy_perm SpecNode.le nodes).map SpecNode.hash).nodup_iff.2 (nodup_distinctNodes given)
      dependencies_known := fun node member hash dependency =>
        (listed hash).2 (known.1 node (mem_sortBy.1 member) hash dependency)
      roots_known := fun hash member => (listed hash).2 (known.2 hash (mem_distinct.1 member)) }

variable (graph : PipelineGraph)

def hashes : List Text :=
  graph.nodes.map SpecNode.hash

def size : Nat :=
  graph.nodes.length

def get? (hash : Text) : Option SpecNode :=
  graph.nodes.find? (·.hash = hash)

def contains (hash : Text) : Bool :=
  (graph.get? hash).isSome

/-- An unknown fingerprint has no dependencies. -/
def dependenciesOf (hash : Text) : List Text :=
  ((graph.get? hash).map SpecNode.dependencies).getD []

/-- The nodes that name `hash` as a dependency, in order. -/
def dependentsOf (hash : Text) : List Text :=
  graph.index.dependents hash

theorem contains_iff {hash : Text} : graph.contains hash = true ↔ hash ∈ graph.hashes := by
  simp [contains, get?, hashes]

/-- From a node to its dependencies. -/
def downward : Reach.Steps Text where
  members := graph.hashes
  next := graph.dependenciesOf
  unique := graph.hashes_unique
  inside := by
    intro source member edge
    unfold dependenciesOf at edge
    cases found : graph.get? source with
    | none => simp [found] at edge
    | some node =>
      rw [found, Option.map_some, Option.getD_some] at edge
      exact graph.dependencies_known node (List.mem_of_find?_eq_some found) member edge
  outside := by
    intro source unknown
    have absent : graph.get? source = none := by simpa [contains] using mt graph.contains_iff.1 unknown
    rw [dependenciesOf, absent, Option.map_none, Option.getD_none]

/-- From a node to its dependents. -/
def upward : Reach.Steps Text where
  members := graph.hashes
  next := graph.dependentsOf
  unique := graph.hashes_unique
  inside := by
    intro source member edge
    rw [dependentsOf, graph.index_eq] at edge
    exact (DependentIndex.among_ofNodes graph.nodes).mem_of_mem_dependents edge
  outside := by
    intro source unknown
    rw [dependentsOf, graph.index_eq]
    exact (DependentIndex.among_ofNodes graph.nodes).dependents_eq_nil unknown

/-- Everything reached through dependency edges, `hash` included. -/
def closure (hash : Text) : List Text :=
  Reach.descend graph.downward graph.contains [] [hash]

end PipelineGraph

end BuildPipeline
