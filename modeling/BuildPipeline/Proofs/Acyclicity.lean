import BuildPipeline.Proofs.Dependents
import Mathlib.Logic.Relation

/-! Dependency edges as a relation. A finite relation without a way back has a
rank that every step lowers, and a relation with such a rank has no way back. -/

namespace BuildPipeline
open Relation

/-- Members counted behind a member: a step that is on no cycle leaves fewer. -/
theorem exists_rank {α : Type _} {step : α → α → Prop} (members : List α)
    (inside : ∀ a b, step a b → b ∈ members) :
    ∃ rank : α → Nat, ∀ a b, step a b → ¬ TransGen step b b → rank b < rank a := by
  classical
  refine ⟨fun a => (members.filter fun other => TransGen step a other).length, ?_⟩
  intro a b edge acyclic
  have narrower : (members.filter fun other => TransGen step b other) =
      (members.filter fun other => TransGen step a other).filter fun other => TransGen step b other := by
    rw [List.filter_filter]
    apply List.filter_congr
    intro other _
    by_cases behind : TransGen step b other
    · simp [behind, TransGen.head edge behind]
    · simp [behind]
  change (members.filter fun other => TransGen step b other).length < _
  rw [narrower, List.length_filter_lt_length_iff_exists]
  refine ⟨b, ?_, by simpa using acyclic⟩
  simpa using ⟨inside a b edge, TransGen.single edge⟩

theorem rank_lt_of_transGen {α : Type _} {step : α → α → Prop} {rank : α → Nat}
    (lowers : ∀ a b, step a b → rank b < rank a) {a b : α} (path : TransGen step a b) :
    rank b < rank a := by
  induction path with
  | single edge => exact lowers _ _ edge
  | tail _ edge ih => exact Nat.lt_trans (lowers _ _ edge) ih

namespace PipelineGraph

variable {graph : PipelineGraph}

theorem eq_of_hash_eq {node twin : SpecNode} (listed : node ∈ graph.nodes) (also : twin ∈ graph.nodes)
    (same : node.hash = twin.hash) : node = twin :=
  List.inj_on_of_nodup_map graph.hashes_unique listed also same

theorem get?_eq_some_iff {hash : Text} {node : SpecNode} :
    graph.get? hash = some node ↔ node ∈ graph.nodes ∧ node.hash = hash := by
  constructor
  · intro found
    exact ⟨List.mem_of_find?_eq_some found, by simpa using List.find?_some found⟩
  · rintro ⟨listed, rfl⟩
    cases found : graph.get? node.hash with
    | none => simpa using List.find?_eq_none.1 found node listed
    | some other =>
      have member := List.mem_of_find?_eq_some found
      have same : other.hash = node.hash := by simpa using List.find?_some found
      rw [eq_of_hash_eq member listed same]

theorem mem_hashes {hash : Text} : hash ∈ graph.hashes ↔ ∃ node ∈ graph.nodes, node.hash = hash :=
  List.mem_map

theorem dependenciesOf_hash {node : SpecNode} (listed : node ∈ graph.nodes) :
    graph.dependenciesOf node.hash = node.dependencies := by
  simp [dependenciesOf, get?_eq_some_iff.2 ⟨listed, rfl⟩]

/-- An edge from a dependent to one of its dependencies. -/
def DependsOn (graph : PipelineGraph) (dependent dependency : Text) : Prop :=
  dependency ∈ graph.dependenciesOf dependent

/-- No build waits for itself. -/
def Acyclic (graph : PipelineGraph) : Prop :=
  ∀ hash, ¬ TransGen graph.DependsOn hash hash

theorem DependsOn.exists_node {dependent dependency : Text}
    (edge : graph.DependsOn dependent dependency) :
    ∃ node ∈ graph.nodes, node.hash = dependent ∧ dependency ∈ node.dependencies := by
  unfold DependsOn dependenciesOf at edge
  cases found : graph.get? dependent with
  | none => simp [found] at edge
  | some node =>
    obtain ⟨listed, same⟩ := get?_eq_some_iff.1 found
    exact ⟨node, listed, same, by simpa [found] using edge⟩

theorem DependsOn.mem_hashes {dependent dependency : Text}
    (edge : graph.DependsOn dependent dependency) : dependency ∈ graph.hashes := by
  obtain ⟨node, listed, _, named⟩ := edge.exists_node
  exact graph.dependencies_known node listed dependency named

theorem mem_dependentsOf {dependent dependency : Text} :
    dependent ∈ graph.dependentsOf dependency ↔ graph.DependsOn dependent dependency := by
  rw [DependsOn, ← List.count_pos_iff, graph.count_dependentsOf, List.count_pos_iff]

theorem DependsOn.mem_hashes_dependent {dependent dependency : Text}
    (edge : graph.DependsOn dependent dependency) : dependent ∈ graph.hashes := by
  obtain ⟨node, listed, same, _⟩ := edge.exists_node
  exact PipelineGraph.mem_hashes.2 ⟨node, listed, same⟩

theorem mem_hashes_of_reflTransGen {start hash : Text} (known : start ∈ graph.hashes)
    (path : ReflTransGen graph.DependsOn start hash) : hash ∈ graph.hashes := by
  cases path with
  | refl => exact known
  | tail _ edge => exact edge.mem_hashes

theorem mem_hashes_of_transGen {start hash : Text} (path : TransGen graph.DependsOn start hash) :
    hash ∈ graph.hashes := by
  cases path with
  | single edge => exact edge.mem_hashes
  | tail _ edge => exact edge.mem_hashes

theorem Acyclic.exists_rank (acyclic : graph.Acyclic) :
    ∃ rank : Text → Nat, ∀ a b, graph.DependsOn a b → rank b < rank a := by
  obtain ⟨rank, lowers⟩ := BuildPipeline.exists_rank graph.hashes fun _ _ (edge : graph.DependsOn _ _) => edge.mem_hashes
  exact ⟨rank, fun a b edge => lowers a b edge (acyclic b)⟩

theorem acyclic_of_rank (rank : Text → Nat)
    (lowers : ∀ a b, graph.DependsOn a b → rank b < rank a) : graph.Acyclic :=
  fun hash path => Nat.lt_irrefl (rank hash) (rank_lt_of_transGen lowers path)

end PipelineGraph

end BuildPipeline
