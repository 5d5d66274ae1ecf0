import BuildPipeline.Command.Plan
import BuildPipeline.Proofs.FailedRuns
import BuildPipeline.Proofs.LeastOrder
import BuildPipeline.Proofs.LeastStages
import BuildPipeline.Proofs.PruningRuns
import BuildPipeline.Proofs.SharedKeys

/-! What a reader is told about a pipeline: the report of its plan and the summary of its
pruning. Both part the nodes into those that get a job and those that do not, lose none
and repeat none, and a run that writes the pipeline counts the two parts. -/

namespace BuildPipeline

/-- All nodes of a graph, parted into the kept ones and the pruned ones. -/
structure PipelineGraph.Parts (graph : PipelineGraph) (pruning : Pruning) (kept pruned : List SpecNode) : Prop where
  all : (kept ++ pruned).Perm graph.nodes
  kept_iff : ∀ node ∈ graph.nodes, node ∈ kept ↔ pruning.isKept node.hash = true
  pruned_iff : ∀ node ∈ graph.nodes, node ∈ pruned ↔ ∃ decision, pruning.PrunedAs node.hash decision

namespace PlanReport

/-- The jobs of a report, each with the stage it stands under. -/
def stagedJobs (report : PlanReport) : List (Nat × ReportedJob) :=
  report.stages.flatMap fun stage => stage.jobs.map fun job => (stage.stage, job)

/-- A report with one entry for each node: a kept one is under the stage of its job, with
the needs of the job, and a pruned one is listed with its decision. -/
structure Shows (report : PlanReport) (pipeline : AnnotatedPipeline) (plan : JobPlan)
    (kept pruned : List SpecNode) : Prop where
  parts : pipeline.graph.Parts pipeline.pruning kept pruned
  planned : (plan.jobs.map PlannedJob.node).Perm kept
  ascending : (report.stages.map ReportedStage.stage).Pairwise (· < ·)
  jobs : List.Forall₂
    (fun node entry => ∃ job ∈ plan.jobs, job.node = node ∧
      entry = (job.stage, ⟨node.label, node.hash, job.attributes.tags, job.needs⟩))
    kept report.stagedJobs
  pruned : List.Forall₂
    (fun node entry => ∃ decision, pipeline.pruning.PrunedAs node.hash decision ∧
      entry = ⟨node.label, node.hash, decision⟩)
    pruned report.pruned

end PlanReport

namespace PipelineGraph

end PipelineGraph

section Lists

variable {α β κ : Type _}

end Lists

namespace PipelineGraph

variable {graph : PipelineGraph} {pruning : Pruning} {kept pruned : List SpecNode} {left right node : SpecNode}

/-- Every node has been decided about. -/
def Decides (graph : PipelineGraph) (pruning : Pruning) : Prop :=
  ∀ node ∈ graph.nodes, ∃ decision, pruning.decision? node.hash = some decision

end PipelineGraph

section Report

variable {pipeline : AnnotatedPipeline} {plan : JobPlan}

namespace AnnotatedPipeline

end AnnotatedPipeline

end Report

namespace PreparedPipeline

variable {prepared : PreparedPipeline} {kept pruned : List SpecNode}

end PreparedPipeline

namespace LinkedStack

variable {stack : LinkedStack} {config : CiConfig} {options : PruneOptions} {signals : PruneSignals}
  {prepared : PreparedPipeline}

namespace CachedLeaf

/-- The names stand in one order by themselves and in the other ahead of a slash. -/
def builds : LinkedStack where
  specs :=
    let entry (name : Text) (dependencies : List Text) : SpecEntry := ⟨{ name, version := "1" }, dependencies⟩
    ⟨[("a", entry "a" ["c"]), ("a-b", entry "a-b" []), ("c", entry "c" [])], by decide⟩
  roots := ["a", "a-b"]
  dependencies_known := by decide
  roots_known := by decide

def settings : PipelineOptions where
  pruneUpToDate := true
  platform := "gitlab"
  outputPath := "/out"
  artifactsRoot := "scratch"

def ready (pipeline : AnnotatedPipeline) : PreparedPipeline where
  manifest := ⟨"builds", builds.roots, builds.specs, none⟩
  generator := .gitlab
  options := settings
  target := ⟨["out"]⟩
  pipeline

def ran (pipeline : AnnotatedPipeline) : CommandRun Generated :=
  ((ready pipeline).generateRun .root "t" : StateM Disk _) ⟨.empty, []⟩ |>.1

end CachedLeaf

end LinkedStack

end BuildPipeline
