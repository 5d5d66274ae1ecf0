import BuildPipeline.Proofs.Countdown

/-! The build order lists every node of an acyclic graph once, each behind all of
its dependencies. As long as nodes remain, the one of least rank is ready. -/

namespace BuildPipeline

/-- Each listed node finds its dependencies among the fingerprints done before. -/
def DependenciesFirst : List Text → List SpecNode → Prop
  | _, [] => True
  | done, node :: rest =>
    (∀ dependency ∈ node.dependencies, dependency ∈ done) ∧ DependenciesFirst (node.hash :: done) rest

theorem DependenciesFirst.snoc {nodes : List SpecNode} {node : SpecNode} {done : List Text}
    (first : DependenciesFirst done nodes)
    (ready : ∀ dependency ∈ node.dependencies, dependency ∈ done ∨ dependency ∈ nodes.map SpecNode.hash) :
    DependenciesFirst done (nodes ++ [node]) := by
  induction nodes generalizing done with
  | nil => exact ⟨by simpa using ready, trivial⟩
  | cons head rest ih =>
    refine ⟨first.1, ih first.2 fun dependency named => ?_⟩
    rcases ready dependency named with known | listed
    · exact .inl (List.mem_cons_of_mem _ known)
    · rcases List.mem_cons.1 listed with rfl | later
      · exact .inl List.mem_cons_self
      · exact .inr later

theorem DependenciesFirst.of_append {before after : List SpecNode} {node : SpecNode} {done : List Text}
    (first : DependenciesFirst done (before ++ node :: after)) :
    ∀ dependency ∈ node.dependencies, dependency ∈ done ∨ dependency ∈ before.map SpecNode.hash := by
  induction before generalizing done with
  | nil => exact fun dependency named => .inl (first.1 dependency named)
  | cons head rest ih =>
    intro dependency named
    rcases ih first.2 dependency named with known | earlier
    · rcases List.mem_cons.1 known with rfl | known
      · exact .inr (by simp)
      · exact .inl known
    · exact .inr (List.mem_cons_of_mem _ earlier)

namespace PipelineGraph

theorem dependenciesFirst_emitReady (remaining : List SpecNode) (emitted : List Text) :
    DependenciesFirst emitted (emitReady remaining emitted) := by
  fun_induction emitReady remaining emitted with
  | case1 => trivial
  | case2 remaining emitted node ready _ ih =>
    have found := List.find?_some ready
    exact ⟨by simpa [isReady] using found, ih⟩

theorem emitReady_subset (remaining : List SpecNode) (emitted : List Text) :
    emitReady remaining emitted ⊆ remaining := by
  fun_induction emitReady remaining emitted with
  | case1 => exact List.nil_subset _
  | case2 remaining emitted node ready _ ih =>
    refine List.cons_subset.2 ⟨List.mem_of_find?_eq_some ready, fun other later => ?_⟩
    exact List.mem_of_mem_erase (ih later)

/-- A node whose rank is least among the remaining ones waits for none of them. -/
theorem exists_ready {remaining : List SpecNode} {emitted : List Text} {rank : Text → Nat}
    (lowers : ∀ node ∈ remaining, ∀ dependency ∈ node.dependencies, rank dependency < rank node.hash)
    (known : ∀ node ∈ remaining, ∀ dependency ∈ node.dependencies,
      dependency ∈ emitted ∨ dependency ∈ remaining.map SpecNode.hash)
    (rest : remaining ≠ []) : ∃ node ∈ remaining, isReady emitted node = true := by
  let least := remaining.minOn (fun node => rank node.hash) rest
  have listed : least ∈ remaining := List.minOn_mem
  have below : ∀ other ∈ remaining, rank least.hash ≤ rank other.hash := fun other member =>
    List.apply_minOn_le_of_mem (f := fun node : SpecNode => rank node.hash) member
  refine ⟨least, listed, ?_⟩
  simp only [isReady, List.all_eq_true, decide_eq_true_eq]
  intro dependency named
  rcases known least listed dependency named with done | waiting
  · exact done
  · obtain ⟨other, member, rfl⟩ := List.mem_map.1 waiting
    exact absurd (lowers least listed _ named) (Nat.not_lt.2 (below other member))

theorem emitReady_perm (rank : Text → Nat) (remaining : List SpecNode) (emitted : List Text)
    (lowers : ∀ node ∈ remaining, ∀ dependency ∈ node.dependencies, rank dependency < rank node.hash)
    (known : ∀ node ∈ remaining, ∀ dependency ∈ node.dependencies,
      dependency ∈ emitted ∨ dependency ∈ remaining.map SpecNode.hash) :
    (emitReady remaining emitted).Perm remaining := by
  fun_induction emitReady remaining emitted with
  | case1 remaining emitted stuck =>
    by_cases rest : remaining = []
    · rw [rest]
    · obtain ⟨node, listed, ready⟩ := exists_ready lowers known rest
      exact absurd ready (by simpa using List.find?_eq_none.1 stuck node listed)
  | case2 remaining emitted node ready _ ih =>
    have listed := List.mem_of_find?_eq_some ready
    have split := List.perm_cons_erase listed
    refine ((ih ?_ ?_).cons node).trans split.symm
    · intro other member
      exact lowers other (List.mem_of_mem_erase member)
    · intro other member dependency named
      rcases known other (List.mem_of_mem_erase member) dependency named with done | waiting
      · exact .inl (List.mem_cons_of_mem _ done)
      · obtain ⟨source, remains, rfl⟩ := List.mem_map.1 waiting
        rcases List.mem_cons.1 (split.mem_iff.1 remains) with rfl | later
        · exact .inl List.mem_cons_self
        · exact .inr (List.mem_map_of_mem later)

variable {graph : PipelineGraph}

theorem Acyclic.topologicalOrder_perm (acyclic : graph.Acyclic) :
    graph.topologicalOrder.Perm graph.nodes := by
  obtain ⟨rank, lowers⟩ := acyclic.exists_rank
  have sorted := sortBy_perm SpecNode.le graph.nodes
  rw [topologicalOrder_eq]
  refine (emitReady_perm rank _ [] ?_ ?_).trans sorted
  · intro node listed dependency named
    apply lowers
    simpa only [DependsOn, dependenciesOf_hash (sorted.mem_iff.1 listed)] using named
  · intro node listed dependency named
    have known := graph.dependencies_known node (sorted.mem_iff.1 listed) dependency named
    exact .inr ((sorted.map SpecNode.hash).mem_iff.2 known)

theorem topologicalOrder_subset (graph : PipelineGraph) : graph.topologicalOrder ⊆ graph.nodes := by
  rw [topologicalOrder_eq]
  exact fun node emitted => mem_sortBy.1 (emitReady_subset _ _ emitted)

theorem topologicalOrder_dependenciesFirst : DependenciesFirst [] graph.topologicalOrder := by
  rw [topologicalOrder_eq]
  exact dependenciesFirst_emitReady _ []

/-- Places in an order with dependencies first are a rank. -/
theorem acyclic_of_dependenciesFirst {order : List SpecNode} (same : order.Perm graph.nodes)
    (first : DependenciesFirst [] order) : graph.Acyclic := by
  apply acyclic_of_rank fun hash => (order.map SpecNode.hash).idxOf hash
  intro dependent dependency edge
  obtain ⟨node, listed, rfl, named⟩ := edge.exists_node
  obtain ⟨before, after, rfl⟩ := List.append_of_mem (same.mem_iff.2 listed)
  have earlier : dependency ∈ before.map SpecNode.hash := by
    simpa using first.of_append dependency named
  have unique : ((before ++ node :: after).map SpecNode.hash).Nodup :=
    (same.map SpecNode.hash).nodup_iff.2 graph.hashes_unique
  simp only [List.map_append, List.map_cons] at unique ⊢
  have fresh : node.hash ∉ before.map SpecNode.hash := fun member =>
    (List.nodup_append.1 unique).2.2 _ member _ List.mem_cons_self rfl
  rw [List.idxOf_append_of_mem earlier, List.idxOf_append_of_notMem fresh, List.idxOf_cons_self,
    Nat.add_zero]
  exact List.idxOf_lt_length_of_mem earlier

end PipelineGraph

end BuildPipeline
