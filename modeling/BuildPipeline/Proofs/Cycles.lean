import BuildPipeline.Proofs.Merging

/-! The walk over a stack comes to an end: with a graph when no cycle can be reached
from a root, and with the labels along a reachable cycle otherwise. -/

namespace BuildPipeline.LinkedStack
open Relation

variable {stack : LinkedStack}

/-- Trees are finite, so a key with a tree is behind none of its dependencies. -/
theorem Unfolds.not_transGen {key : Text} {tree : SpecTree} (unfolds : stack.Unfolds key tree) :
    ¬ TransGen stack.DependsOn key key := by
  induction unfolds with
  | entry found _ ih =>
    intro path
    obtain ⟨dependency, edge, back⟩ := TransGen.head'_iff.1 path
    exact ih dependency ((dependsOn_iff found).1 edge) (TransGen.tail' back edge)

/-- A walk that ends has unfolded every reachable key. -/
theorem acyclic_of_walk {build : GraphBuild} (walked : stack.walk = .ok build) : stack.Acyclic := by
  intro key reachable
  obtain ⟨_, unfolds, _⟩ := exists_tree_of_reachable walked reachable
  exact unfolds.not_transGen

theorem graph_of_walk_error {cycle : List Text} (stopped : stack.walk = .error cycle) :
    stack.graph = .error (.cyclicDependency (cycle.map stack.label)) := by
  simp only [graph, stopped]

theorem exists_cyclicDependency (cyclic : ¬ stack.Acyclic) :
    ∃ labels, stack.graph = .error (.cyclicDependency labels) := by
  cases walked : stack.walk with
  | ok build => exact absurd (acyclic_of_walk walked) cyclic
  | error cycle => exact ⟨_, graph_of_walk_error walked⟩

/-- Every stack gets a graph or the labels along one of its reachable cycles, and
it is a cycle that is reported exactly when one can be reached. -/
theorem graph_or_reachable_cycle (stack : LinkedStack) :
    ((∃ graph, stack.graph = .ok graph) ∨
      ∃ cycle, stack.graph = .error (.cyclicDependency (cycle.map stack.label)) ∧ stack.IsCycle cycle ∧
        ∀ key ∈ cycle, stack.Reachable key) ∧
    ((∃ labels, stack.graph = .error (.cyclicDependency labels)) ↔
      ∃ key, stack.Reachable key ∧ TransGen stack.DependsOn key key) := by
  cases walked : stack.walk with
  | ok build =>
    obtain ⟨graph, made, _⟩ := exists_graph_of_walk walked
    refine ⟨.inl ⟨graph, made⟩, ?_, ?_⟩
    · rintro ⟨labels, stopped⟩
      rw [made] at stopped
      cases stopped
    · rintro ⟨key, reachable, path⟩
      exact absurd path (acyclic_of_walk walked key reachable)
  | error cycle =>
    have reported := graph_of_walk_error walked
    obtain ⟨real, reachable⟩ := walk_error walked
    refine ⟨.inr ⟨cycle, reported, real, reachable⟩, fun _ => ?_, fun _ => ⟨_, reported⟩⟩
    obtain ⟨key, member, back⟩ := real.transGen
    exact ⟨key, reachable key member, back⟩

end BuildPipeline.LinkedStack
