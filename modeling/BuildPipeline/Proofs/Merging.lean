import BuildPipeline.Proofs.Likeness
import BuildPipeline.Proofs.Walk

/-! The graph of a stack as its reachable keys with like builds merged. Each key
goes to the fingerprint of its tree, and edges and roots go along. -/

namespace BuildPipeline
open Relation

namespace LinkedStack

variable {stack : LinkedStack} {build : GraphBuild}

/-- A map of the reachable keys onto the nodes of a graph that merges the keys
with the same trees and carries dependencies and roots over. -/
structure Merges (stack : LinkedStack) (same : SpecTree → SpecTree → Prop) (graph : PipelineGraph)
    (hashOf : Text → Text) : Prop where
  once : graph.hashes.Nodup
  nodes : ∀ hash, hash ∈ graph.hashes ↔ ∃ key, stack.Reachable key ∧ hashOf key = hash
  contents : ∀ node ∈ graph.nodes, ∃ key entry, stack.Reachable key ∧ stack.specs.get? key = some entry ∧
    node = .ofContent entry.content (entry.dependencies.map hashOf)
  dependencies : ∀ key, stack.Reachable key →
    graph.dependenciesOf (hashOf key) = dependencySet ((stack.dependenciesOf key).map hashOf)
  roots : graph.roots = distinct (stack.roots.map hashOf)
  merged : ∀ left right, stack.Reachable left → stack.Reachable right → ∃ tree twin,
    stack.Unfolds left tree ∧ stack.Unfolds right twin ∧ (hashOf left = hashOf right ↔ same tree twin)
  acyclic : graph.Acyclic
  rooted : ∀ hash ∈ graph.hashes, ∃ root ∈ graph.roots, ReflTransGen graph.DependsOn root hash

/-- A walk that ends has finished all that can be reached. -/
theorem isSome_of_reachable (walked : stack.walk = .ok build) {key : Text} (reachable : stack.Reachable key) :
    (build.hashOf? key).isSome := by
  obtain ⟨sound, done⟩ := walk_sound walked
  obtain ⟨root, listed, path⟩ := reachable
  induction path with
  | refl => exact done root listed
  | tail _ edge ih => exact sound.closed _ _ ih edge

def finishedHash (build : GraphBuild) (key : Text) : Text :=
  (build.hashOf? key).getD []

theorem hashOf?_eq (walked : stack.walk = .ok build) {key : Text} (reachable : stack.Reachable key) :
    build.hashOf? key = some (finishedHash build key) := by
  obtain ⟨hash, known⟩ := Option.isSome_iff_exists.1 (isSome_of_reachable walked reachable)
  simp [finishedHash, known]

theorem exists_tree_of_reachable (walked : stack.walk = .ok build) {key : Text}
    (reachable : stack.Reachable key) : ∃ tree, stack.Unfolds key tree ∧ tree.hash = finishedHash build key :=
  ((walk_sound walked).1.finished key _ (hashOf?_eq walked reachable)).2.2

theorem hash_eq_finishedHash (walked : stack.walk = .ok build) {key : Text} (reachable : stack.Reachable key)
    {tree : SpecTree} (unfolds : stack.Unfolds key tree) : tree.hash = finishedHash build key := by
  obtain ⟨other, also, same⟩ := exists_tree_of_reachable walked reachable
  rwa [unfolds.unique also]

theorem node_eq (walked : stack.walk = .ok build) {key : Text} (reachable : stack.Reachable key)
    {entry : SpecEntry} (found : stack.specs.get? key = some entry) {tree : SpecTree}
    (unfolds : stack.Unfolds key tree) :
    tree.node = .ofContent entry.content (entry.dependencies.map (finishedHash build)) := by
  cases unfolds with
  | @entry _ other below again unfolds =>
    obtain rfl := Option.some.inj (found.symm.trans again)
    rw [SpecTree.node, List.map_map]
    congr 1
    refine List.map_congr_left fun dependency named => ?_
    exact hash_eq_finishedHash walked (reachable.tail ((dependsOn_iff found).2 named)) (unfolds dependency named)

theorem dependencies_eq_of_payload_eq {tree twin : SpecTree} (same : tree.payload = twin.payload) :
    tree.node.dependencies = twin.node.dependencies := by
  cases tree
  cases twin
  rw [SpecTree.payload, SpecTree.payload] at same
  rw [SpecTree.node, SpecTree.node]
  exact (SpecContent.payload_eq_iff.1 same).2

theorem exists_entry_of_reachable {key : Text} (reachable : stack.Reachable key) :
    ∃ entry, stack.specs.get? key = some entry :=
  Table.exists_get?_of_mem_keys reachable.mem_keys

section Graph

variable {graph : PipelineGraph}

theorem mem_hashes_iff (walked : stack.walk = .ok build) (nodes : graph.nodes.Perm build.nodes) {hash : Text} :
    hash ∈ graph.hashes ↔ ∃ key, stack.Reachable key ∧ finishedHash build key = hash := by
  obtain ⟨sound, _⟩ := walk_sound walked
  rw [PipelineGraph.hashes, (nodes.map SpecNode.hash).mem_iff]
  constructor
  · intro listed
    obtain ⟨node, member, rfl⟩ := List.mem_map.1 listed
    obtain ⟨key, tree, known, unfolds, rfl⟩ := sound.nodes node member
    obtain ⟨hash, found⟩ := Option.isSome_iff_exists.1 known
    obtain ⟨_, reachable, _⟩ := sound.finished key hash found
    exact ⟨key, reachable, by rw [tree.hash_node, hash_eq_finishedHash walked reachable unfolds]⟩
  · rintro ⟨key, reachable, rfl⟩
    exact (sound.finished key _ (hashOf?_eq walked reachable)).1

theorem exists_key_of_mem_nodes (walked : stack.walk = .ok build) (nodes : graph.nodes.Perm build.nodes)
    {node : SpecNode} (listed : node ∈ graph.nodes) :
    ∃ key tree, stack.Reachable key ∧ stack.Unfolds key tree ∧ node = tree.node := by
  obtain ⟨sound, _⟩ := walk_sound walked
  obtain ⟨key, tree, known, unfolds, rfl⟩ := sound.nodes node (nodes.mem_iff.1 listed)
  obtain ⟨hash, found⟩ := Option.isSome_iff_exists.1 known
  exact ⟨key, tree, (sound.finished key hash found).2.1, unfolds, rfl⟩

/-- A key and the key whose node was kept for it have the same dependencies. -/
theorem dependenciesOf_finishedHash (walked : stack.walk = .ok build) (nodes : graph.nodes.Perm build.nodes)
    (injective : Set.InjOn fingerprint stack.payloads) {key : Text} (reachable : stack.Reachable key) :
    graph.dependenciesOf (finishedHash build key) =
      dependencySet ((stack.dependenciesOf key).map (finishedHash build)) := by
  obtain ⟨tree, unfolds, same⟩ := exists_tree_of_reachable walked reachable
  obtain ⟨entry, found⟩ := exists_entry_of_reachable reachable
  obtain ⟨node, listed, stored⟩ := PipelineGraph.mem_hashes.1 ((mem_hashes_iff walked nodes).2 ⟨key, reachable, rfl⟩)
  obtain ⟨keeper, twin, also, twinUnfolds, rfl⟩ := exists_key_of_mem_nodes walked nodes listed
  have equal : tree.hash = twin.hash := by rw [same, ← stored, twin.hash_node]
  have payloads := (hash_eq_iff_payload_eq injective reachable also unfolds twinUnfolds).1 equal
  rw [← stored, PipelineGraph.dependenciesOf_hash listed, ← dependencies_eq_of_payload_eq payloads,
    node_eq walked reachable found unfolds, dependenciesOf_eq found]
  rfl

theorem roots_eq (walked : stack.walk = .ok build)
    (roots : graph.roots = distinct (stack.roots.filterMap build.hashOf?)) :
    graph.roots = distinct (stack.roots.map (finishedHash build)) := by
  have all : stack.roots.filterMap build.hashOf? = stack.roots.map (finishedHash build) := by
    rw [← List.filterMap_eq_map]
    exact List.filterMap_congr fun root listed => hashOf?_eq walked ⟨root, listed, .refl⟩
  rw [roots, all]

theorem exists_root_path (walked : stack.walk = .ok build) (nodes : graph.nodes.Perm build.nodes)
    (roots : graph.roots = distinct (stack.roots.map (finishedHash build)))
    (injective : Set.InjOn fingerprint stack.payloads) {key : Text} (reachable : stack.Reachable key) :
    ∃ root ∈ graph.roots, ReflTransGen graph.DependsOn root (finishedHash build key) := by
  obtain ⟨root, listed, path⟩ := reachable
  refine ⟨finishedHash build root, ?_, ?_⟩
  · rw [roots, mem_distinct]
    exact List.mem_map_of_mem listed
  · induction path with
    | refl => exact .refl
    | @tail between last front edge ih =>
      refine ih.tail ?_
      rw [PipelineGraph.DependsOn, dependenciesOf_finishedHash walked nodes injective ⟨root, listed, front⟩]
      simpa [dependencySet, sortTexts] using ⟨last, edge, rfl⟩

end Graph

end LinkedStack

theorem StackManifest.eq_of_link {manifest : StackManifest} {stack : LinkedStack}
    (linked : manifest.link = .ok stack) : stack.specs = manifest.specs ∧ stack.roots = manifest.roots := by
  unfold link at linked
  split at linked
  · obtain rfl := Except.ok.inj linked
    exact ⟨rfl, rfl⟩
  · cases linked

theorem StackManifest.plain_of_keyless (manifest : StackManifest) (keyless : ∀ entry ∈ manifest.specs.entries,
    backingKey ∉ (entry.2.content.variants.getD Table.empty).keys) :
    ∀ entry ∈ manifest.specs.entries, entry.2.content.Plain := by
  intro entry listed variants present
  simpa [present] using keyless entry listed

/-- Unless payloads collide, the graph of an acyclic stack merges exactly the
reachable entries that unfold alike. -/
theorem StackManifest.exists_merging_graph {manifest : StackManifest} {stack : LinkedStack}
    (linked : manifest.link = .ok stack) (plain : ∀ entry ∈ manifest.specs.entries, entry.2.content.Plain)
    (acyclic : stack.Acyclic) (injective : Set.InjOn fingerprint stack.payloads) :
    stack.specs = manifest.specs ∧ stack.roots = manifest.roots ∧
      ∃ graph, stack.graph = .ok graph ∧
        ∃ hashOf, stack.Merges (SpecTree.AlikeBy SpecContent.Alike) graph hashOf := by
  obtain ⟨specs, roots⟩ := eq_of_link linked
  refine ⟨specs, roots, ?_⟩
  rw [← specs] at plain
  obtain ⟨build, walked⟩ := acyclic.exists_walk
  obtain ⟨graph, made, nodes, rooted, _⟩ := LinkedStack.exists_graph_of_walk walked
  have rooted := LinkedStack.roots_eq walked rooted
  refine ⟨graph, made, LinkedStack.finishedHash build, ?_⟩
  constructor
  case once => exact graph.hashes_unique
  case nodes => exact fun hash => LinkedStack.mem_hashes_iff walked nodes
  case contents =>
    intro node listed
    obtain ⟨key, tree, reachable, unfolds, rfl⟩ := LinkedStack.exists_key_of_mem_nodes walked nodes listed
    obtain ⟨entry, found⟩ := LinkedStack.exists_entry_of_reachable reachable
    exact ⟨key, entry, reachable, found, LinkedStack.node_eq walked reachable found unfolds⟩
  case dependencies => exact fun key => LinkedStack.dependenciesOf_finishedHash walked nodes injective
  case roots => exact rooted
  case merged =>
    intro left right reachable also
    obtain ⟨tree, unfolds, same⟩ := LinkedStack.exists_tree_of_reachable walked reachable
    obtain ⟨twin, twinUnfolds, twinSame⟩ := LinkedStack.exists_tree_of_reachable walked also
    refine ⟨tree, twin, unfolds, twinUnfolds, ?_⟩
    rw [← same, ← twinSame]
    exact LinkedStack.hash_eq_iff plain injective reachable also unfolds twinUnfolds
  case acyclic => exact LinkedStack.acyclic_of_graph made
  case rooted =>
    intro hash listed
    obtain ⟨key, reachable, rfl⟩ := (LinkedStack.mem_hashes_iff walked nodes).1 listed
    exact LinkedStack.exists_root_path walked nodes rooted injective reachable

/-- Like content with variants listed, if only none of them, on both sides or on neither. -/
def SpecContent.AlikeAsWritten (left right : SpecContent) : Prop :=
  left.Alike right ∧ left.variants.isSome = right.variants.isSome

namespace Twins

/-- Two entries for one build, of which the second lists that it has no variants. -/
def manifest : StackManifest where
  name := [116]
  roots := [[97], [98]]
  specs :=
    let content (variants : Option Variants) : SpecContent := { name := [112], version := [49], variants }
    ⟨[([97], ⟨content none, []⟩), ([98], ⟨content (some Table.empty), []⟩)], by decide⟩

def stack : LinkedStack where
  specs := manifest.specs
  roots := manifest.roots
  dependencies_known := by decide
  roots_known := by decide

theorem link_manifest : manifest.link = .ok stack :=
  dif_pos (by decide)

theorem not_dependsOn (key dependency : Text) : ¬ stack.DependsOn key dependency := by
  intro edge
  obtain ⟨entry, found, named⟩ := edge.exists_entry
  have none : ∀ entry ∈ stack.specs.entries, entry.2.dependencies = [] := by decide
  rw [none _ (Table.get?_eq_some_iff.1 found)] at named
  cases named

theorem acyclic : stack.Acyclic := by
  intro key _ path
  cases path with
  | single edge => exact not_dependsOn _ _ edge
  | tail _ edge => exact not_dependsOn _ _ edge

theorem plain : ∀ entry ∈ manifest.specs.entries, entry.2.content.Plain :=
  manifest.plain_of_keyless (by decide)

theorem injOn_payloads : Set.InjOn fingerprint stack.payloads := by
  have single : ∀ entry ∈ stack.specs.entries,
      entry.2.content.payload [] = ({ name := [112], version := [49] } : SpecContent).payload [] := by decide
  have whole : ∀ payload ∈ stack.payloads,
      payload = ({ name := [112], version := [49] } : SpecContent).payload [] := by
    rintro _ ⟨key, tree, _, unfolds, rfl⟩
    cases unfolds with
    | @entry _ entry below found _ =>
      have none : ∀ entry ∈ stack.specs.entries, entry.2.dependencies = [] := by decide
      have listed := Table.get?_eq_some_iff.1 found
      rw [SpecTree.payload, none _ listed]
      exact single _ listed
  intro left first right second _
  rw [whole left first, whole right second]

end Twins

theorem StackManifest.exists_merging_graph_twins :
    Twins.stack.Acyclic ∧ ∃ graph, Twins.stack.graph = .ok graph ∧
      ∃ hashOf, Twins.stack.Merges (SpecTree.AlikeBy SpecContent.Alike) graph hashOf :=
  ⟨Twins.acyclic,
    (StackManifest.exists_merging_graph Twins.link_manifest Twins.plain Twins.acyclic Twins.injOn_payloads).2.2⟩

/-- Entries that differ only in listing no variants are one node, so not all that
is written differently is kept apart. -/
theorem StackManifest.merges_absent_variants :
    Twins.manifest.link = .ok Twins.stack ∧ (∀ entry ∈ Twins.manifest.specs.entries, entry.2.content.Plain) ∧
      Twins.stack.Acyclic ∧ Set.InjOn fingerprint Twins.stack.payloads ∧
      ¬ ∃ graph, Twins.stack.graph = .ok graph ∧
        ∃ hashOf, Twins.stack.Merges (SpecTree.AlikeBy SpecContent.AlikeAsWritten) graph hashOf := by
  refine ⟨Twins.link_manifest, Twins.plain, Twins.acyclic, Twins.injOn_payloads, ?_⟩
  rintro ⟨graph, made, hashOf, merges⟩
  have size : (Twins.stack.graph.toOption.all (·.size = 1)) = true := by decide +kernel
  rw [made] at size
  obtain ⟨node, only⟩ := List.length_eq_one_iff.1 (of_decide_eq_true size)
  have first : Twins.stack.Reachable [97] := ⟨[97], by decide, .refl⟩
  have second : Twins.stack.Reachable [98] := ⟨[98], by decide, .refl⟩
  have merged : hashOf [97] = hashOf [98] := by
    have left := (merges.nodes _).2 ⟨_, first, rfl⟩
    have right := (merges.nodes _).2 ⟨_, second, rfl⟩
    simp only [PipelineGraph.hashes, only, List.map_cons, List.map_nil, List.mem_singleton] at left right
    exact left.trans right.symm
  obtain ⟨tree, twin, unfolds, twinUnfolds, same⟩ := merges.merged [97] [98] first second
  have alike := same.1 merged
  cases unfolds with
  | @entry _ entry below found _ =>
    cases twinUnfolds with
    | @entry _ other twinBelow again _ =>
      obtain ⟨⟨_, written⟩, _⟩ := SpecTree.alikeBy_build.1 alike
      obtain rfl := Option.some.inj found
      obtain rfl := Option.some.inj again
      cases written

end BuildPipeline
