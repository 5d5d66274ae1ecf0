import BuildPipeline.Graph.Build
import BuildPipeline.Plan.Jobs

/-! From a linked stack to an annotated pipeline: build, prune, resolve. -/

namespace BuildPipeline.LinkedStack

def assemble (stack : LinkedStack) (config : CiConfig) (options : PruneOptions)
    (signals : PruneSignals) : Except PipelineError AnnotatedPipeline := do
  let graph ← stack.graph
  let pruning := graph.prune options signals []
  let attributes ← graph.resolveAttributes pruning config
  return ⟨graph, pruning, attributes⟩

end BuildPipeline.LinkedStack
