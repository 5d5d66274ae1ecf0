import BuildPipeline.Pruning

/-! Needs of a job: its kept dependencies, and behind each pruned one the nearest
kept builds. What was found behind a pruned build is remembered. -/

namespace BuildPipeline

/-- Nearest kept builds found behind pruned ones. -/
abbrev BridgeMemo := List (Text × List Text)

def union [DecidableEq α] (left right : List α) : List α :=
  left ++ right.filter (· ∉ left)

namespace PipelineGraph

/-- By name and then fingerprint; an unknown fingerprint has an empty name. -/
def hashLe (graph : PipelineGraph) (left right : Text) : Bool :=
  let nameOf (hash : Text) : Text := ((graph.get? hash).map SpecNode.name).getD ""
  if nameOf left = nameOf right then textLe left right else textLe (nameOf left) (nameOf right)

/-- `available` holds the builds that are not on the way down to this one. -/
def nearestKept (graph : PipelineGraph) (pruning : Pruning) (available : List Text)
    (memo : BridgeMemo) (hash : Text) : List Text × BridgeMemo :=
  if pruning.isKept hash then ([hash], memo)
  else
    match memo.lookup hash with
    | some found => (found, memo)
    | none =>
      if inside : hash ∈ available then
        have fewer : (available.erase hash).length < available.length := by
          have positive := List.length_pos_of_mem inside
          rw [List.length_erase_of_mem inside]
          omega
        let (found, memo) := (graph.dependenciesOf hash).foldl
          (fun (found, memo) dependency =>
            let (more, memo) := nearestKept graph pruning (available.erase hash) memo dependency
            (union found more, memo))
          ([], memo)
        (found, (hash, found) :: memo)
      else ([], memo)
termination_by available.length

/-- The needs of a node in order, and the memo to go on with. -/
def bridgedDependencies (graph : PipelineGraph) (pruning : Pruning) (memo : BridgeMemo) (hash : Text) :
    List Text × BridgeMemo :=
  let (needs, memo) := (graph.dependenciesOf hash).foldl
    (fun (needs, memo) dependency =>
      let (more, memo) := graph.nearestKept pruning graph.hashes memo dependency
      (union needs more, memo))
    ([], memo)
  (sortBy graph.hashLe needs, memo)

end PipelineGraph

end BuildPipeline
