import BuildPipeline.Pruning

/-! The listing of what is rebuilt and what is pruned. -/

namespace BuildPipeline.PipelineGraph

/-- Lines are ordered by name, a slash and the short fingerprint. -/
def summaryKey (node : SpecNode) : Text :=
  node.name ++ "/" ++ shortHash node.hash

def summaryNodes (graph : PipelineGraph) : List SpecNode :=
  sortBy (fun left right => textLe (summaryKey left) (summaryKey right)) graph.nodes

def rebuildLines (graph : PipelineGraph) (pruning : Pruning) : List Text :=
  graph.summaryNodes.filterMap fun node =>
    match pruning.decision? node.hash with
    | some ⟨.keep, reason⟩ => some ("  [x] " ++ node.fullLabel ++ " (" ++ reason ++ ")")
    | _ => none

def pruneLines (graph : PipelineGraph) (pruning : Pruning) : List Text :=
  graph.summaryNodes.filterMap fun node =>
    match pruning.decision? node.hash with
    | some ⟨.keep, _⟩ => none
    | some ⟨status, reason⟩ =>
      some ("   -  " ++ node.fullLabel ++ " (" ++ status.name ++ ": " ++ reason ++ ")")
    | none => none

/-- A heading without lines is left out. -/
def headed (heading : Text) (lines : List Text) : List Text :=
  if lines.isEmpty then [] else heading :: lines

def pruningSummary (graph : PipelineGraph) (pruning : Pruning) : List Text :=
  "Pipeline pruning summary:" ::
    (headed " Rebuild list:" (graph.rebuildLines pruning) ++
      headed " Prune list:" (graph.pruneLines pruning))

end BuildPipeline.PipelineGraph
