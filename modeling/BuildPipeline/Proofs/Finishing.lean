import BuildPipeline.Graph.Build
import BuildPipeline.Proofs.BuildOrder
import BuildPipeline.Proofs.SpecTree

/-! What is finished on the way from a linked stack to its nodes. Each key is finished
behind its dependencies, so it gets the fingerprint of its tree. -/

namespace BuildPipeline
open Relation

variable {stack : LinkedStack}

/-- What is finished stays finished with its fingerprint. -/
def GraphBuild.Extends (build last : GraphBuild) : Prop :=
  ∀ key hash, build.hashOf? key = some hash → last.hashOf? key = some hash

/-- Finished keys carry the fingerprints of their trees, together with all that
they depend on, and the nodes are those of finished keys in an order with
dependencies first. -/
structure GraphBuild.Sound (stack : LinkedStack) (build : GraphBuild) : Prop where
  unique : (build.nodes.map SpecNode.hash).Nodup
  ordered : DependenciesFirst [] build.nodes
  finished : ∀ key hash, build.hashOf? key = some hash →
    hash ∈ build.nodes.map SpecNode.hash ∧ stack.Reachable key ∧
      ∃ tree, stack.Unfolds key tree ∧ tree.hash = hash
  closed : ∀ key dependency, (build.hashOf? key).isSome → stack.DependsOn key dependency →
    (build.hashOf? dependency).isSome
  nodes : ∀ node ∈ build.nodes, ∃ key tree,
    (build.hashOf? key).isSome ∧ stack.Unfolds key tree ∧ tree.node = node

namespace GraphBuild

variable {build last : GraphBuild}

theorem Extends.refl (build : GraphBuild) : build.Extends build :=
  fun _ _ known => known

theorem Extends.trans {middle : GraphBuild} (first : build.Extends middle) (second : middle.Extends last) :
    build.Extends last :=
  fun key hash known => second key hash (first key hash known)

theorem Extends.isSome (extends' : build.Extends last) {key : Text} (known : (build.hashOf? key).isSome) :
    (last.hashOf? key).isSome := by
  obtain ⟨hash, found⟩ := Option.isSome_iff_exists.1 known
  simp [extends' key hash found]

theorem sound_empty : Sound stack {} := by
  constructor <;> simp [hashOf?, DependenciesFirst]

theorem Sound.exists_tree (sound : build.Sound stack) {key : Text} {entry : SpecEntry}
    (found : stack.specs.get? key = some entry)
    (ready : ∀ dependency ∈ entry.dependencies, (build.hashOf? dependency).isSome) :
    ∃ tree, stack.Unfolds key tree ∧
      tree.node = .ofContent entry.content (entry.dependencies.filterMap build.hashOf?) := by
  have trees : ∀ dependency ∈ entry.dependencies, ∃ tree : SpecTree,
      stack.Unfolds dependency tree ∧ build.hashOf? dependency = some tree.hash := by
    intro dependency named
    obtain ⟨hash, known⟩ := Option.isSome_iff_exists.1 (ready dependency named)
    obtain ⟨_, _, tree, unfolds, rfl⟩ := sound.finished dependency hash known
    exact ⟨tree, unfolds, known⟩
  choose! below unfolds hashes using trees
  refine ⟨_, .entry found unfolds, ?_⟩
  rw [SpecTree.node, List.map_map]
  congr 1
  rw [← List.filterMap_eq_map]
  refine List.filterMap_congr fun dependency named => ?_
  simpa using (hashes dependency named).symm

theorem hashOf?_finish (build : GraphBuild) (key : Text) (node : SpecNode) (other : Text) :
    (build.finish key node).hashOf? other =
      (build.hashOf? other).or (if other = key then some node.hash else none) := by
  simp only [finish, hashOf?, List.lookup_append]
  by_cases same : other = key
  · simp [same]
  · have unequal : (other == key) = false := by simpa using same
    simp [List.lookup_cons, same, unequal]

theorem extends_finish (build : GraphBuild) (key : Text) (node : SpecNode) :
    build.Extends (build.finish key node) := by
  intro other hash known
  simp [hashOf?_finish, known]

/-- Finishing keeps the nodes when one has the fingerprint, and else adds one. -/
theorem nodes_finish (build : GraphBuild) (key : Text) (node : SpecNode) :
    (build.finish key node).nodes = build.nodes ∧ node.hash ∈ build.nodes.map SpecNode.hash ∨
      (build.finish key node).nodes = build.nodes ++ [node] ∧ node.hash ∉ build.nodes.map SpecNode.hash := by
  by_cases known : node.hash ∈ build.nodes.map SpecNode.hash
  · have repeated : build.nodes.any (·.hash = node.hash) = true := by simpa using known
    exact .inl ⟨if_pos repeated, known⟩
  · have fresh : ¬ build.nodes.any (·.hash = node.hash) = true := by simpa using known
    exact .inr ⟨if_neg fresh, known⟩

theorem Sound.nodes_finish (sound : build.Sound stack) (key : Text) {node : SpecNode}
    (behind : ∀ hash ∈ node.dependencies, hash ∈ build.nodes.map SpecNode.hash) :
    ((build.finish key node).nodes.map SpecNode.hash).Nodup ∧ DependenciesFirst [] (build.finish key node).nodes := by
  rcases build.nodes_finish key node with ⟨same, _⟩ | ⟨added, fresh⟩
  · rw [same]
    exact ⟨sound.unique, sound.ordered⟩
  · rw [added]
    constructor
    · rw [List.map_append, List.nodup_append]
      refine ⟨sound.unique, by simp, ?_⟩
      rintro hash member other final rfl
      exact fresh (by simpa [List.mem_singleton.1 final] using member)
    · exact sound.ordered.snoc fun dependency named => .inr (behind dependency named)

/-- Finishing a key whose dependencies are finished keeps all that is known. -/
theorem Sound.finish (sound : build.Sound stack) {key : Text} {entry : SpecEntry}
    (found : stack.specs.get? key = some entry) (reachable : stack.Reachable key)
    (ready : ∀ dependency ∈ entry.dependencies, (build.hashOf? dependency).isSome) :
    (build.finish key (.ofContent entry.content (entry.dependencies.filterMap build.hashOf?))).Sound stack := by
  obtain ⟨tree, unfolds, same⟩ := sound.exists_tree found ready
  have behind : ∀ hash ∈ tree.node.dependencies, hash ∈ build.nodes.map SpecNode.hash := by
    intro hash named
    have member : hash ∈ entry.dependencies.filterMap build.hashOf? := by
      simpa [same, SpecNode.ofContent, dependencySet, sortTexts] using named
    obtain ⟨name, _, known⟩ := List.mem_filterMap.1 member
    exact (sound.finished name hash known).1
  rw [← same]
  have keeps := build.extends_finish key tree.node
  have done : ((build.finish key tree.node).hashOf? key).isSome := by simp [hashOf?_finish]
  have nodes := build.nodes_finish key tree.node
  rw [tree.hash_node] at nodes
  obtain ⟨unique, ordered⟩ := sound.nodes_finish key behind
  refine ⟨unique, ordered, ?_, ?_, ?_⟩
  · intro other hash known
    have kept : hash ∈ build.nodes.map SpecNode.hash ∨ hash = tree.hash →
        hash ∈ (build.finish key tree.node).nodes.map SpecNode.hash := by
      rcases nodes with ⟨all, listed⟩ | ⟨all, _⟩
      · rw [all]
        rintro (earlier | rfl)
        · exact earlier
        · exact listed
      · simp [all]
    rw [hashOf?_finish] at known
    rcases Option.or_eq_some_iff.1 known with earlier | ⟨_, final⟩
    · obtain ⟨listed, rest⟩ := sound.finished other hash earlier
      exact ⟨kept (.inl listed), rest⟩
    · rw [Option.ite_none_right_eq_some, Option.some.injEq, SpecTree.hash_node] at final
      obtain ⟨rfl, rfl⟩ := final
      exact ⟨kept (.inr rfl), reachable, tree, unfolds, rfl⟩
  · intro other dependency known edge
    apply keeps.isSome
    by_cases equal : other = key
    · subst equal
      exact ready dependency ((LinkedStack.dependsOn_iff found).1 edge)
    · refine sound.closed other dependency ?_ edge
      simpa [hashOf?_finish, equal] using known
  · intro node member
    have origin : node ∈ build.nodes ∨ node = tree.node := by
      rcases nodes with ⟨all, _⟩ | ⟨all, _⟩
      · exact .inl (all ▸ member)
      · simpa [all] using member
    rcases origin with earlier | rfl
    · obtain ⟨other, source, known, rest⟩ := sound.nodes node earlier
      exact ⟨other, source, keeps.isSome known, rest⟩
    · exact ⟨key, tree, done, unfolds, rfl⟩

end GraphBuild

end BuildPipeline
