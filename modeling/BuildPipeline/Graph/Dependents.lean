import BuildPipeline.Spec.Node

/-! Dependency edges turned around. One pass over the nodes enters each of them under
all that it depends on, and what is entered is sorted in the end. -/

namespace BuildPipeline

/-- For each node the nodes that name it as a dependency. -/
abbrev DependentIndex := List (Text × List Text)

namespace DependentIndex

/-- One more dependent under a dependency. -/
def enter (dependent : Text) (index : DependentIndex) (dependency : Text) : DependentIndex :=
  index.map fun entry => if entry.1 = dependency then (dependency, entry.2 ++ [dependent]) else entry

/-- A node is entered once for every time that it names a dependency. -/
def enterNode (index : DependentIndex) (node : SpecNode) : DependentIndex :=
  node.dependencies.foldl (enter node.hash) index

def ofNodes (nodes : List SpecNode) : DependentIndex :=
  (nodes.foldl enterNode (nodes.map fun node => (node.hash, []))).map fun entry => (entry.1, sortTexts entry.2)

/-- An unknown fingerprint has no dependents. -/
def dependents (index : DependentIndex) (hash : Text) : List Text :=
  (index.lookup hash).getD []

/-- All that is entered, and what it is entered under, is among some fingerprints. -/
def Among (hashes : List Text) (index : DependentIndex) : Prop :=
  ∀ ⦃entry⦄, entry ∈ index → entry.1 ∈ hashes ∧ ∀ dependent ∈ entry.2, dependent ∈ hashes

variable {hashes : List Text} {index : DependentIndex} {hash : Text}

theorem Among.enter {dependent : Text} (among : Among hashes index) (known : dependent ∈ hashes) (dependency : Text) :
    Among hashes (enter dependent index dependency) := by
  intro entry entered
  obtain ⟨before, listed, rfl⟩ := List.mem_map.1 entered
  split
  next named =>
    refine ⟨named ▸ (among listed).1, fun other member => ?_⟩
    rcases List.mem_append.1 member with earlier | last
    · exact (among listed).2 other earlier
    · rwa [List.mem_singleton.1 last]
  next => exact among listed

theorem Among.enterNode {node : SpecNode} (among : Among hashes index) (known : node.hash ∈ hashes) :
    Among hashes (index.enterNode node) := by
  unfold DependentIndex.enterNode
  induction node.dependencies generalizing index with
  | nil => exact among
  | cons dependency rest ih => exact ih (among.enter known dependency)

theorem Among.foldl_enterNode {nodes : List SpecNode} (among : Among hashes index)
    (known : ∀ node ∈ nodes, node.hash ∈ hashes) : Among hashes (nodes.foldl DependentIndex.enterNode index) := by
  induction nodes generalizing index with
  | nil => exact among
  | cons node rest ih =>
    obtain ⟨first, later⟩ := List.forall_mem_cons.1 known
    exact ih (among.enterNode first) later

theorem among_ofNodes (nodes : List SpecNode) : Among (nodes.map SpecNode.hash) (ofNodes nodes) := by
  have empty : Among (nodes.map SpecNode.hash) (nodes.map fun node => (node.hash, [])) := by
    intro entry listed
    obtain ⟨node, member, rfl⟩ := List.mem_map.1 listed
    exact ⟨List.mem_map_of_mem member, by simp⟩
  have filled := empty.foldl_enterNode fun node member => List.mem_map_of_mem member
  intro entry listed
  obtain ⟨before, member, rfl⟩ := List.mem_map.1 listed
  obtain ⟨known, entered⟩ := filled member
  exact ⟨known, fun dependent sorted => entered dependent (mem_sortBy.1 sorted)⟩

theorem Among.mem_of_mem_dependents {dependent : Text} (among : Among hashes index)
    (listed : dependent ∈ index.dependents hash) : dependent ∈ hashes := by
  unfold dependents at listed
  cases found : index.lookup hash with
  | none => simp [found] at listed
  | some others =>
    rw [found, Option.getD_some] at listed
    exact (among (mem_of_lookup found)).2 dependent listed

theorem Among.dependents_eq_nil (among : Among hashes index) (unknown : hash ∉ hashes) : index.dependents hash = [] := by
  unfold dependents
  cases found : index.lookup hash with
  | none => rfl
  | some others => exact absurd (among (mem_of_lookup found)).1 unknown

end DependentIndex

end BuildPipeline
