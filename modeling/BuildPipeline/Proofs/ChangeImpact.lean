import BuildPipeline.Proofs.Descending
import BuildPipeline.Proofs.PruningRuns
import BuildPipeline.Proofs.Reaching
import Mathlib.Data.Rat.Cast.Order

/-! What a change affects: the nodes that are as near to it as the depth allows, and
all that these depend on. The search climbs from dependencies to dependents level by
level, so the level that a node is found on is its distance from the change. -/

namespace BuildPipeline
open Relation

namespace PipelineGraph

/-- The change names a node, by its name or by its fingerprint. -/
def Touched (graph : PipelineGraph) (changed : List Text) (hash : Text) : Prop :=
  ∃ node ∈ graph.nodes, node.hash = hash ∧ (node.name ∈ changed ∨ node.hash ∈ changed)

/-- The length of a shortest path along dependencies. -/
def Distance (graph : PipelineGraph) : Text → Text → Nat → Prop :=
  Reach.Nearest graph.dependenciesOf

/-- Close enough to the change: at any distance, at a distance within the depth, or
for a negative depth the changed roots alone. -/
def Near (graph : PipelineGraph) (changed : List Text) : Option Int → Text → Prop
  | none, hash => ∃ target, graph.Touched changed target ∧ ReflTransGen graph.DependsOn hash target
  | some depth, hash =>
    if depth < 0 then graph.Touched changed hash ∧ hash ∈ graph.roots
    else ∃ target, graph.Touched changed target ∧ ∃ length, graph.Distance hash target length ∧ length ≤ depth

/-- A whole number of levels as a limit for the search. -/
def levelLimit (depth : Option Int) : Option Number :=
  depth.map fun levels => .finite levels

/-- What is affected at a whole depth, or at any. -/
def affectedAt (graph : PipelineGraph) (changed : List Text) (depth : Option Int) : List Text :=
  graph.affected changed (levelLimit depth)

/-- Depths by how far they look: no depth is the deepest, and negative ones look nowhere. -/
def DepthLe : Option Int → Option Int → Prop
  | _, none => True
  | none, some _ => False
  | some shallow, some deep => shallow < 0 ∨ shallow ≤ deep

/-- What is found to be affected, and what pruning makes of it. The search has
`settled` when further levels find nothing more. -/
structure FindsAffected (graph : PipelineGraph) (changed : List Text) (depth : Option Int) : Prop where
  once : (graph.affectedAt changed depth).Nodup
  members : ∀ hash, hash ∈ graph.affectedAt changed depth ↔
    ∃ start, graph.Near changed depth start ∧ ReflTransGen graph.DependsOn start hash
  closed : ∀ hash ∈ graph.affectedAt changed depth, ∀ dependency, graph.DependsOn hash dependency →
    dependency ∈ graph.affectedAt changed depth
  grows : ∀ more deeper, changed ⊆ more → DepthLe depth deeper →
    graph.affectedAt changed depth ⊆ graph.affectedAt more deeper
  settled : ∀ levels, depth = some levels → graph.size ≤ levels →
    ∀ hash, hash ∈ graph.affectedAt changed depth ↔ hash ∈ graph.affectedAt changed none
  spared : ∀ root ∈ graph.roots, graph.Touched changed root → ∀ options signals previous,
    options.dependentDepth = levelLimit depth → signals.changed = some changed → previous.IsOpen root →
    ∃ decision, (graph.prune options signals previous).decision? root = some decision ∧
      decision.status ≠ .prunedUnaffected

variable {graph : PipelineGraph} {changed : List Text} {depth : Option Int} {hash : Text}

theorem mem_matchedBy : hash ∈ graph.matchedBy changed ↔ graph.Touched changed hash := by
  simp only [matchedBy, List.mem_map, List.mem_filter, Bool.or_eq_true, decide_eq_true_eq, Touched]
  constructor
  · rintro ⟨node, ⟨listed, named⟩, same⟩
    exact ⟨node, listed, same, named⟩
  · rintro ⟨node, listed, same, named⟩
    exact ⟨node, ⟨listed, named⟩, same⟩

theorem Touched.mem_hashes (touched : graph.Touched changed hash) : hash ∈ graph.hashes := by
  obtain ⟨node, listed, same, _⟩ := touched
  exact PipelineGraph.mem_hashes.2 ⟨node, listed, same⟩

theorem Touched.mono {more : List Text} (wider : changed ⊆ more) (touched : graph.Touched changed hash) :
    graph.Touched more hash := by
  obtain ⟨node, listed, same, named⟩ := touched
  exact ⟨node, listed, same, named.imp (fun name => wider name) fun own => wider own⟩

/-- A way up through dependents is a way down along dependencies. -/
theorem way_dependentsOf_iff {source target : Text} {length : Nat} :
    Reach.Way graph.dependentsOf length target source ↔ Reach.Way graph.dependenciesOf length source target := by
  constructor
  · exact fun way => way.reverse fun _ _ edge => mem_dependentsOf.1 edge
  · exact fun way => way.reverse fun _ _ edge => mem_dependentsOf.2 edge

theorem lt_of_finite (first second : Int) : (Number.finite first).lt (.finite second) = decide (first < second) := by
  simp [Number.lt]

theorem isNegativeDepth_levelLimit (levels : Int) : isNegativeDepth (levelLimit (some levels)) = decide (levels < 0) :=
  lt_of_finite levels 0

/-- All steps of a way are allowed when the way is no longer than the depth. -/
theorem forall_depthAllows_iff {levels : Int} (natural : 0 ≤ levels) {length : Nat} :
    (∀ step < length, depthAllows (levelLimit (some levels)) step = true) ↔ length ≤ levels := by
  have allows (step : Nat) : depthAllows (levelLimit (some levels)) step = decide ((step : Int) < levels) :=
    lt_of_finite step levels
  simp only [allows, decide_eq_true_eq]
  constructor
  · intro within
    cases length with
    | zero => exact natural
    | succ length => exact within length (Nat.lt_succ_self length)
  · intro within step earlier
    omega

theorem mem_climb_upward {allowed : Nat → Bool} :
    hash ∈ Reach.climb graph.upward allowed 0 (graph.matchedBy changed) (graph.matchedBy changed) ↔
      ∃ target, graph.Touched changed target ∧ ∃ length, Reach.Way graph.dependenciesOf length hash target ∧
        ∀ step < length, allowed step := by
  rw [Reach.mem_climb]
  simp only [upward, mem_matchedBy, way_dependentsOf_iff]

/-- The search upwards finds what is near. -/
theorem mem_reachedBy : hash ∈ graph.reachedBy changed (levelLimit depth) ↔ graph.Near changed depth hash := by
  cases depth with
  | none =>
    have whole : graph.reachedBy changed (levelLimit none) =
        Reach.climb graph.upward (fun _ => true) 0 (graph.matchedBy changed) (graph.matchedBy changed) := rfl
    rw [whole, mem_climb_upward]
    simp only [implies_true, and_true, Reach.exists_way_iff]
    rfl
  | some levels =>
    unfold reachedBy Near
    simp only [isNegativeDepth_levelLimit, decide_eq_true_eq]
    split
    next negative => simp [mem_matchedBy]
    next natural =>
      rw [mem_climb_upward]
      simp only [forall_depthAllows_iff (Int.not_lt.1 natural)]
      refine exists_congr fun target => and_congr_right fun _ => ⟨?_, ?_⟩
      · rintro ⟨length, way, within⟩
        obtain ⟨least, shorter, nearest⟩ := way.exists_nearest
        exact ⟨least, nearest, by omega⟩
      · rintro ⟨length, nearest, within⟩
        exact ⟨length, nearest.1, within⟩

theorem Near.mem_hashes (near : graph.Near changed depth hash) : hash ∈ graph.hashes := by
  have reached := mem_reachedBy.2 near
  unfold reachedBy at reached
  split at reached
  · exact (mem_matchedBy.1 (List.mem_of_mem_filter reached)).mem_hashes
  · obtain ⟨target, touched, length, way, _⟩ := mem_climb_upward.1 reached
    cases length with
    | zero =>
      cases way
      exact touched.mem_hashes
    | succ length =>
      obtain ⟨second, edge, _⟩ := way.exists_head
      exact DependsOn.mem_hashes_dependent edge

theorem mem_affectedAt : hash ∈ graph.affectedAt changed depth ↔
    ∃ start, graph.Near changed depth start ∧ ReflTransGen graph.DependsOn start hash := by
  simp only [affectedAt, affected, mem_distinct, List.mem_flatMap, mem_reachedBy, mem_closure]
  refine exists_congr fun start => and_congr_right fun near => ?_
  exact and_iff_right near.mem_hashes

theorem distance_self (graph : PipelineGraph) (hash : Text) : graph.Distance hash hash 0 :=
  ⟨.here, fun _ _ => Nat.zero_le _⟩

theorem exists_distance_of_path {target : Text} (path : ReflTransGen graph.DependsOn hash target) :
    ∃ length, graph.Distance hash target length := by
  obtain ⟨length, way⟩ := Reach.exists_way_iff.2 path
  obtain ⟨least, _, nearest⟩ := way.exists_nearest
  exact ⟨least, nearest⟩

theorem Distance.path {target : Text} {length : Nat} (distance : graph.Distance hash target length) :
    ReflTransGen graph.DependsOn hash target :=
  Reach.exists_way_iff.1 ⟨length, distance.1⟩

theorem Near.of_natural {levels : Int} (natural : 0 ≤ levels) :
    graph.Near changed (some levels) hash ↔
      ∃ target, graph.Touched changed target ∧ ∃ length, graph.Distance hash target length ∧ length ≤ levels := by
  rw [Near, if_neg (Int.not_lt.2 natural)]

theorem Near.of_negative {levels : Int} (negative : levels < 0) :
    graph.Near changed (some levels) hash ↔ graph.Touched changed hash ∧ hash ∈ graph.roots := by
  rw [Near, if_pos negative]

/-- A changed root is near at every depth. -/
theorem near_root (depth : Option Int) (touched : graph.Touched changed hash) (root : hash ∈ graph.roots) :
    graph.Near changed depth hash := by
  cases depth with
  | none => exact ⟨hash, touched, .refl⟩
  | some levels =>
    rcases Int.lt_or_le levels 0 with negative | natural
    · exact (Near.of_negative negative).2 ⟨touched, root⟩
    · exact (Near.of_natural natural).2 ⟨hash, touched, 0, graph.distance_self hash, natural⟩

theorem Near.near_none (near : graph.Near changed depth hash) : graph.Near changed none hash := by
  cases depth with
  | none => exact near
  | some levels =>
    rcases Int.lt_or_le levels 0 with negative | natural
    · exact ⟨hash, ((Near.of_negative negative).1 near).1, .refl⟩
    · obtain ⟨target, touched, length, distance, _⟩ := (Near.of_natural natural).1 near
      exact ⟨target, touched, distance.path⟩

/-- What is near stays near when more is changed. -/
theorem Near.widen {more : List Text} (wider : changed ⊆ more) (near : graph.Near changed depth hash) :
    graph.Near more depth hash := by
  cases depth with
  | none =>
    obtain ⟨target, touched, path⟩ := near
    exact ⟨target, touched.mono wider, path⟩
  | some levels =>
    rcases Int.lt_or_le levels 0 with negative | natural
    · obtain ⟨touched, root⟩ := (Near.of_negative negative).1 near
      exact (Near.of_negative negative).2 ⟨touched.mono wider, root⟩
    · obtain ⟨target, touched, within⟩ := (Near.of_natural natural).1 near
      exact (Near.of_natural natural).2 ⟨target, touched.mono wider, within⟩

/-- What is near stays near when the look goes deeper. -/
theorem Near.deepen {deeper : Option Int} (deep : DepthLe depth deeper) (near : graph.Near changed depth hash) :
    graph.Near changed deeper hash := by
  cases deeper with
  | none => exact near.near_none
  | some levels =>
    cases depth with
    | none => exact deep.elim
    | some fewer =>
      rcases Int.lt_or_le fewer 0 with negative | natural
      · obtain ⟨touched, root⟩ := (Near.of_negative negative).1 near
        exact near_root (some levels) touched root
      · have below : fewer ≤ levels := deep.resolve_left (Int.not_lt.2 natural)
        obtain ⟨target, touched, length, distance, within⟩ := (Near.of_natural natural).1 near
        exact (Near.of_natural (natural.trans below)).2 ⟨target, touched, length, distance, within.trans below⟩

theorem Distance.lt_size {target : Text} {length : Nat} (known : hash ∈ graph.hashes)
    (distance : graph.Distance hash target length) : length < graph.size := by
  have shorter := Reach.Nearest.lt_length (fun _ _ (edge : graph.DependsOn _ _) => edge.mem_hashes) known distance
  rwa [hashes, List.length_map] at shorter

/-- No node is farther from a change than the graph is large. -/
theorem near_of_size_le {levels : Int} (enough : graph.size ≤ levels) :
    graph.Near changed (some levels) hash ↔ graph.Near changed none hash := by
  refine ⟨Near.near_none, fun near => ?_⟩
  obtain ⟨target, touched, path⟩ := id near
  obtain ⟨length, distance⟩ := exists_distance_of_path path
  have shorter := distance.lt_size near.mem_hashes
  exact (Near.of_natural (by omega)).2 ⟨target, touched, length, distance, by omega⟩

/-- Only what is not affected is marked as unaffected. -/
theorem notMem_affected_of_prunes {options : PruneOptions} {signals : PruneSignals} {node : SpecNode}
    {decision : Decision} (prunes : PruneCall.Prunes graph ⟨options, signals⟩ node decision)
    (unaffected : decision.status = .prunedUnaffected) :
    node.hash ∉ graph.affected (signals.changed.getD []) options.dependentDepth := by
  obtain ⟨before, policy, after, order, _, finds, rfl⟩ := prunes
  have enabled : policy ∈ PruneCall.enabled ⟨options, signals⟩ := order ▸ by simp
  have listed : policy ∈ [PruningPolicy.broken, .available, .unaffected, .external] := List.mem_of_mem_filter enabled
  simp only [List.mem_cons, List.not_mem_nil, or_false] at listed
  rcases listed with rfl | rfl | rfl | rfl
  · cases unaffected
  · cases unaffected
  · simpa [PruneCall.Finds, PruningPolicy.unaffected] using finds
  · cases unaffected

/-- The affected nodes are the closures of those near the change, whatever the depth. -/
theorem finds_closures_near_change (graph : PipelineGraph) (changed : List Text) (depth : Option Int) :
    graph.FindsAffected changed depth := by
  constructor
  case once => exact nodup_distinct _
  case members => exact fun hash => mem_affectedAt
  case closed =>
    intro hash found dependency edge
    obtain ⟨start, near, path⟩ := mem_affectedAt.1 found
    exact mem_affectedAt.2 ⟨start, near, path.tail edge⟩
  case grows =>
    intro more deeper wider deep hash found
    obtain ⟨start, near, path⟩ := mem_affectedAt.1 found
    exact mem_affectedAt.2 ⟨start, (near.widen wider).deepen deep, path⟩
  case settled =>
    rintro levels rfl enough hash
    simp only [mem_affectedAt, near_of_size_le enough]
  case spared =>
    intro root rooted touched options signals previous limited named undecided
    obtain ⟨node, listed, rfl, _⟩ := id touched
    refine ⟨_, prune_decides listed options signals undecided, fun unaffected => ?_⟩
    rcases PruneCall.decide_spec graph ⟨options, signals⟩ node with prunes | ⟨_, kept⟩
    · have missed := notMem_affected_of_prunes prunes unaffected
      rw [named, limited] at missed
      exact missed (mem_affectedAt.2 ⟨node.hash, near_root depth touched rooted, .refl⟩)
    · rw [kept] at unaffected
      cases unaffected

end PipelineGraph

end BuildPipeline
