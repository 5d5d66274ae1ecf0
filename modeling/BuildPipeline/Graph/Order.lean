import BuildPipeline.Graph.Basic

/-! The build order: dependencies before dependents, and among ready nodes the
least by name and fingerprint first. Every node counts the dependencies that it
still waits for. -/

namespace BuildPipeline.PipelineGraph

/-- How many dependencies each node waits for, and the nodes that wait no longer. -/
structure Countdown where
  pending : Text → Int
  unlocked : List SpecNode := []

variable (graph : PipelineGraph)

/-- The nodes that still wait. -/
def waiting (pending : Text → Int) : List Text :=
  graph.hashes.filter (0 < pending ·)

/-- One dependency less for `dependent`, which is unlocked when none is left. -/
def countDown (state : Countdown) (dependent : Text) : Countdown :=
  let count := state.pending dependent - 1
  let unlocked := if count = 0 then (graph.get? dependent).toList else []
  { pending := fun hash => if hash = dependent then count else state.pending hash
    unlocked := state.unlocked ++ unlocked }

/-- All dependents of a node count it down. -/
def release (pending : Text → Int) (hash : Text) : Countdown :=
  (graph.dependentsOf hash).foldl graph.countDown { pending }

/-- Who waits for one dependency alone waits no longer when it is counted down. -/
theorem waiting_countDown (state : Countdown) (dependent : Text) :
    graph.waiting (graph.countDown state dependent).pending =
      (graph.waiting state.pending).filter fun hash => hash ≠ dependent || state.pending dependent ≠ 1 := by
  rw [waiting, waiting, List.filter_filter]
  refine List.filter_congr fun hash _ => ?_
  by_cases same : hash = dependent
  · subst same
    simp only [countDown, if_pos, ne_eq, decide_not, decide_true, Bool.not_true, Bool.false_or]
    by_cases last : state.pending hash = 1
    · simp [last]
    · simp only [last, decide_false, Bool.not_false, Bool.true_and, decide_eq_decide]
      omega
  · simp [countDown, same]

/-- Whatever is unlocked waited before. -/
theorem length_countDown (state : Countdown) (dependent : Text) :
    let after := graph.countDown state dependent
    after.unlocked.length + (graph.waiting after.pending).length ≤
      state.unlocked.length + (graph.waiting state.pending).length := by
  intro after
  have fewer : (graph.waiting after.pending).length ≤ (graph.waiting state.pending).length := by
    rw [waiting_countDown]
    exact List.length_filter_le _ _
  by_cases last : state.pending dependent = 1
  · cases found : graph.get? dependent with
    | none => simpa [after, countDown, last, found] using fewer
    | some node =>
      have known : dependent ∈ graph.hashes := by rw [← contains_iff, contains, found, Option.isSome_some]
      have listed : dependent ∈ graph.waiting state.pending := by simp [waiting, known, last]
      have left : (graph.waiting after.pending).length < (graph.waiting state.pending).length := by
        rw [waiting_countDown]
        exact List.length_filter_lt_length_iff_exists.2 ⟨dependent, listed, by simp [last]⟩
      have more : after.unlocked.length = state.unlocked.length + 1 := by simp [after, countDown, last, found]
      omega
  · have none : after.unlocked = state.unlocked := by
      have going : state.pending dependent - 1 ≠ 0 := by omega
      simp [after, countDown, going]
    rw [none]
    omega

theorem length_release (pending : Text → Int) (hash : Text) :
    (graph.release pending hash).unlocked.length + (graph.waiting (graph.release pending hash).pending).length ≤
      (graph.waiting pending).length := by
  have run (dependents : List Text) (state : Countdown) :
      (dependents.foldl graph.countDown state).unlocked.length +
          (graph.waiting (dependents.foldl graph.countDown state).pending).length ≤
        state.unlocked.length + (graph.waiting state.pending).length := by
    induction dependents generalizing state with
    | nil => exact Nat.le_refl _
    | cons dependent rest ih => exact Nat.le_trans (ih _) (graph.length_countDown state dependent)
  simpa [release] using run (graph.dependentsOf hash) { pending }

/-- Takes the first ready node. Those that it unlocks are sorted into the others. -/
def emit (pending : Text → Int) : List SpecNode → List SpecNode
  | [] => []
  | node :: ready =>
    let after := graph.release pending node.hash
    node :: emit after.pending (sortBy SpecNode.le (ready ++ after.unlocked))
termination_by ready => ready.length + (graph.waiting pending).length
decreasing_by
  have fewer := graph.length_release pending node.hash
  have all := (sortBy_perm SpecNode.le (ready ++ (graph.release pending node.hash).unlocked)).length_eq
  rw [List.length_append] at all
  simp only [List.length_cons]
  omega

def topologicalOrder : List SpecNode :=
  graph.emit (fun hash => (graph.dependenciesOf hash).length)
    (sortBy SpecNode.le (graph.nodes.filter (·.dependencies.isEmpty)))

end BuildPipeline.PipelineGraph
