import BuildPipeline.Graph.Order
import BuildPipeline.Proofs.Acyclicity

/-! What the counters of the build order stand for. Each node counts those of its
dependencies that are not emitted yet, so the ready nodes are the remaining ones that
wait for none, and the loop always emits the first of these. -/

namespace BuildPipeline.PipelineGraph

/-- All dependencies have been emitted. -/
def isReady (emitted : List Text) (node : SpecNode) : Bool :=
  node.dependencies.all (· ∈ emitted)

/-- Emits the first ready node until none is left. -/
def emitReady (remaining : List SpecNode) (emitted : List Text) : List SpecNode :=
  match ready : remaining.find? (isReady emitted) with
  | none => []
  | some node =>
    have fewer : (remaining.erase node).length < remaining.length := by
      have member := List.mem_of_find?_eq_some ready
      have positive := List.length_pos_of_mem member
      rw [List.length_erase_of_mem member]
      omega
    node :: emitReady (remaining.erase node) (node.hash :: emitted)
termination_by remaining.length

theorem emitReady_of_none {remaining : List SpecNode} {emitted : List Text}
    (stuck : remaining.find? (isReady emitted) = none) : emitReady remaining emitted = [] := by
  unfold emitReady
  split
  next => rfl
  next ready => cases stuck.symm.trans ready

theorem emitReady_of_some {remaining : List SpecNode} {emitted : List Text} {node : SpecNode}
    (first : remaining.find? (isReady emitted) = some node) :
    emitReady remaining emitted = node :: emitReady (remaining.erase node) (node.hash :: emitted) := by
  conv_lhs => unfold emitReady
  split
  next stuck => cases stuck.symm.trans first
  next ready =>
    obtain rfl := Option.some.inj (ready.symm.trans first)
    rfl

variable {graph : PipelineGraph}

theorem pending_foldl_countDown (dependents : List Text) (state : Countdown) (hash : Text) :
    (dependents.foldl graph.countDown state).pending hash = state.pending hash - dependents.count hash := by
  induction dependents generalizing state with
  | nil => simp
  | cons dependent rest ih =>
    rw [List.foldl_cons, ih]
    by_cases same : hash = dependent
    · subst same
      simp only [countDown, if_pos, List.count_cons_self]
      omega
    · simp [countDown, same, Ne.symm same]

theorem mem_unlocked_countDown (state : Countdown) (dependent : Text) {node : SpecNode} :
    node ∈ (graph.countDown state dependent).unlocked ↔ node ∈ state.unlocked ∨
      node ∈ graph.nodes ∧ node.hash = dependent ∧ state.pending dependent = 1 := by
  simp only [countDown, List.mem_append]
  refine or_congr_right ?_
  by_cases last : state.pending dependent = 1
  · simp [last, get?_eq_some_iff]
  · simp [last, Int.sub_eq_zero]

/-- A node is unlocked where its count comes down to nothing. -/
theorem mem_unlocked_foldl_countDown (dependents : List Text) (state : Countdown) {node : SpecNode} :
    node ∈ (dependents.foldl graph.countDown state).unlocked ↔ node ∈ state.unlocked ∨
      node ∈ graph.nodes ∧ 1 ≤ state.pending node.hash ∧ state.pending node.hash ≤ dependents.count node.hash := by
  induction dependents generalizing state with
  | nil =>
    refine ⟨.inl, fun found => found.resolve_right ?_⟩
    rintro ⟨_, waits, none⟩
    rw [List.count_nil] at none
    omega
  | cons dependent rest ih =>
    rw [List.foldl_cons, ih, mem_unlocked_countDown, or_assoc, ← and_or_left]
    refine or_congr_right (and_congr_right fun _ => ?_)
    by_cases same : node.hash = dependent
    · subst same
      simp only [countDown, if_pos, List.count_cons_self, true_and]
      omega
    · simp [countDown, same, Ne.symm same]

/-- Who is unlocked waits for nothing, and is not unlocked again. -/
theorem nodup_unlocked_foldl_countDown (dependents : List Text) (state : Countdown) (once : state.unlocked.Nodup)
    (free : ∀ node ∈ state.unlocked, state.pending node.hash ≤ 0) :
    (dependents.foldl graph.countDown state).unlocked.Nodup := by
  induction dependents generalizing state with
  | nil => exact once
  | cons dependent rest ih =>
    refine ih (graph.countDown state dependent) ?_ fun node unlocked => ?_
    · simp only [countDown]
      split
      next last =>
        refine List.nodup_append.2 ⟨once, by cases graph.get? dependent <;> simp, ?_⟩
        rintro node unlocked _ found rfl
        obtain ⟨_, same⟩ := get?_eq_some_iff.1 (Option.mem_toList.1 found)
        have none := free node unlocked
        rw [same] at none
        omega
      next => rwa [List.append_nil]
    · rw [mem_unlocked_countDown] at unlocked
      simp only [countDown]
      split
      next same =>
        rcases unlocked with before | ⟨_, _, last⟩
        · have none := free node before
          rw [same] at none
          omega
        · omega
      next apart =>
        rcases unlocked with before | ⟨_, same, _⟩
        · exact free node before
        · exact absurd same apart

theorem pending_release (graph : PipelineGraph) (pending : Text → Int) (hash other : Text) :
    (graph.release pending hash).pending other = pending other - (graph.dependenciesOf other).count hash := by
  rw [release, pending_foldl_countDown, graph.count_dependentsOf]

theorem mem_unlocked_release (pending : Text → Int) (hash : Text) {node : SpecNode} :
    node ∈ (graph.release pending hash).unlocked ↔ node ∈ graph.nodes ∧
      1 ≤ pending node.hash ∧ pending node.hash ≤ (graph.dependenciesOf node.hash).count hash := by
  rw [release, mem_unlocked_foldl_countDown, graph.count_dependentsOf]
  simp

theorem nodup_unlocked_release (graph : PipelineGraph) (pending : Text → Int) (hash : Text) :
    (graph.release pending hash).unlocked.Nodup :=
  nodup_unlocked_foldl_countDown _ _ .nil (by simp)

/-- How many dependencies of a node are not emitted. -/
def waitsFor (graph : PipelineGraph) (emitted : List Text) (hash : Text) : Nat :=
  (graph.dependenciesOf hash).countP (· ∉ emitted)

theorem isReady_iff {emitted : List Text} {node : SpecNode} (listed : node ∈ graph.nodes) :
    isReady emitted node = true ↔ graph.waitsFor emitted node.hash = 0 := by
  simp [isReady, waitsFor, dependenciesOf_hash listed, List.countP_eq_zero]

theorem waitsFor_cons {emitted : List Text} {hash : Text} (fresh : hash ∉ emitted) (dependent : Text) :
    graph.waitsFor emitted dependent =
      graph.waitsFor (hash :: emitted) dependent + (graph.dependenciesOf dependent).count hash := by
  unfold waitsFor
  induction graph.dependenciesOf dependent with
  | nil => rfl
  | cons dependency rest ih =>
    rw [List.countP_cons, List.countP_cons, List.count_cons, ih]
    by_cases same : dependency = hash
    · subst same
      simp [fresh]
      omega
    · simp [same]
      omega

/-- What is emitted, what remains in order, and what of it is ready. -/
structure Counting (graph : PipelineGraph) (emitted : List Text) (pending : Text → Int)
    (remaining ready : List SpecNode) : Prop where
  counts : ∀ hash, pending hash = graph.waitsFor emitted hash
  remain : ∀ node, node ∈ remaining ↔ node ∈ graph.nodes ∧ node.hash ∉ emitted
  passed : ∀ node ∈ graph.nodes, node.hash ∈ emitted → isReady emitted node = true
  sorted : remaining.Pairwise (SpecNode.le · · = true)
  once : remaining.Nodup
  ready : ready = remaining.filter (isReady emitted)

theorem counting_start (graph : PipelineGraph) :
    graph.Counting [] (fun hash => (graph.dependenciesOf hash).length) (sortBy SpecNode.le graph.nodes)
      (sortBy SpecNode.le (graph.nodes.filter (·.dependencies.isEmpty))) where
  counts := fun hash => by simp [waitsFor]
  remain := by simp
  passed := by simp
  sorted := SpecNode.le_ordered.sorted _
  once := (sortBy_perm _ _).nodup_iff.2 (.of_map _ graph.hashes_unique)
  ready := by
    rw [filter_sortBy SpecNode.le_ordered]
    congr 1
    refine List.filter_congr fun node _ => ?_
    cases dependencies : node.dependencies <;> simp [isReady, dependencies]

variable {emitted : List Text} {pending : Text → Int} {remaining ready : List SpecNode} {node : SpecNode}

theorem isReady_cons {emitted : List Text} {node : SpecNode} (ready : isReady emitted node = true) (hash : Text) :
    isReady (hash :: emitted) node = true := by
  simp only [isReady, List.all_eq_true, decide_eq_true_eq] at ready ⊢
  exact fun dependency named => List.mem_cons_of_mem hash (ready dependency named)

namespace Counting

theorem mem_ready (counting : graph.Counting emitted pending remaining ready) {node : SpecNode} :
    node ∈ ready ↔ node ∈ remaining ∧ isReady emitted node = true := by
  rw [counting.ready, List.mem_filter]

/-- An emitted node unlocks those that waited for it alone. -/
theorem mem_unlocked (counting : graph.Counting emitted pending remaining ready) {hash : Text}
    (fresh : hash ∉ emitted) (node : SpecNode) : node ∈ (graph.release pending hash).unlocked ↔
      node ∈ graph.nodes ∧ ¬ isReady emitted node = true ∧ isReady (hash :: emitted) node = true := by
  rw [mem_unlocked_release, counting.counts]
  refine and_congr_right fun listed => ?_
  rw [isReady_iff listed, isReady_iff listed, waitsFor_cons fresh]
  omega

/-- Ready are then the others that were, and those that are unlocked. -/
theorem perm_ready (counting : graph.Counting emitted pending remaining (node :: ready)) :
    (ready ++ (graph.release pending node.hash).unlocked).Perm
      ((remaining.erase node).filter (isReady (node.hash :: emitted))) := by
  obtain ⟨waiting, free⟩ := counting.mem_ready.1 List.mem_cons_self
  obtain ⟨listed, fresh⟩ := (counting.remain node).1 waiting
  have unlocked := counting.mem_unlocked fresh
  have once : (node :: ready).Nodup := counting.ready ▸ counting.once.filter _
  obtain ⟨alone, single⟩ := List.nodup_cons.1 once
  -- Neither side has repeats, so the same members are enough.
  refine perm_of_mem_iff ?_ ((counting.once.erase node).filter _) fun other => ?_
  · refine List.nodup_append.2 ⟨single, graph.nodup_unlocked_release pending node.hash, ?_⟩
    rintro other before _ after rfl
    exact ((unlocked other).1 after).2.1 (counting.mem_ready.1 (List.mem_cons_of_mem _ before)).2
  · rw [List.mem_append, List.mem_filter, counting.once.mem_erase_iff, unlocked]
    constructor
    · rintro (before | ⟨known, waited, now⟩)
      · obtain ⟨remains, able⟩ := counting.mem_ready.1 (List.mem_cons_of_mem _ before)
        exact ⟨⟨fun same => alone (same ▸ before), remains⟩, isReady_cons able _⟩
      · have remains := (counting.remain other).2 ⟨known, fun done => waited (counting.passed other known done)⟩
        exact ⟨⟨fun same => waited (same ▸ free), remains⟩, now⟩
    · rintro ⟨⟨apart, remains⟩, now⟩
      by_cases able : isReady emitted other = true
      · exact .inl ((List.mem_cons.1 (counting.mem_ready.2 ⟨remains, able⟩)).resolve_left apart)
      · exact .inr ⟨((counting.remain other).1 remains).1, able, now⟩

theorem step (counting : graph.Counting emitted pending remaining (node :: ready)) :
    graph.Counting (node.hash :: emitted) (graph.release pending node.hash).pending (remaining.erase node)
      (sortBy SpecNode.le (ready ++ (graph.release pending node.hash).unlocked)) := by
  obtain ⟨waiting, free⟩ := counting.mem_ready.1 List.mem_cons_self
  obtain ⟨listed, fresh⟩ := (counting.remain node).1 waiting
  constructor
  case counts =>
    intro hash
    have counted := graph.waitsFor_cons fresh hash
    rw [pending_release, counting.counts]
    omega
  case remain =>
    intro other
    rw [counting.once.mem_erase_iff, counting.remain, List.mem_cons, not_or, and_left_comm]
    refine and_congr_right fun known => and_congr_left fun _ => not_congr ?_
    exact ⟨congrArg SpecNode.hash, eq_of_hash_eq known listed⟩
  case passed =>
    intro other known done
    rcases List.mem_cons.1 done with same | before
    · rw [eq_of_hash_eq known listed same]
      exact isReady_cons free _
    · exact isReady_cons (counting.passed other known before) _
  case sorted => exact counting.sorted.sublist List.erase_sublist
  case once => exact counting.once.erase node
  case ready =>
    have same := (sortBy_perm SpecNode.le _).trans counting.perm_ready
    have known : ∀ other ∈ sortBy SpecNode.le (ready ++ (graph.release pending node.hash).unlocked),
        other ∈ graph.nodes := fun other member =>
      ((counting.remain other).1 (List.mem_of_mem_erase (List.mem_of_mem_filter (same.mem_iff.1 member)))).1
    refine eq_of_perm_of_sorted (fun left first right second forward backward => ?_) same
      (SpecNode.le_ordered.sorted _) ?_
    · exact eq_of_hash_eq (known left first) (known right second) (SpecNode.hash_eq_of_le forward backward)
    · exact (counting.sorted.sublist List.erase_sublist).sublist List.filter_sublist

end Counting

theorem Counting.emit_eq (counting : graph.Counting emitted pending remaining ready) :
    graph.emit pending ready = emitReady remaining emitted := by
  fun_induction emit graph pending ready generalizing remaining emitted with
  | case1 pending =>
    have stuck : remaining.find? (isReady emitted) = none := by
      rw [← List.head?_filter, ← counting.ready, List.head?_nil]
    rw [emitReady_of_none stuck]
  | case2 pending node ready after =>
    rename_i ih
    have first : remaining.find? (isReady emitted) = some node := by
      rw [← List.head?_filter, ← counting.ready, List.head?_cons]
    rw [emitReady_of_some first, ih counting.step]

/-- Counting down dependents emits the first ready node over and over. -/
theorem topologicalOrder_eq (graph : PipelineGraph) :
    graph.topologicalOrder = emitReady (sortBy SpecNode.le graph.nodes) [] :=
  graph.counting_start.emit_eq

end BuildPipeline.PipelineGraph
