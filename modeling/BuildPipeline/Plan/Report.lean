import BuildPipeline.Json.Report
import BuildPipeline.Plan.Jobs

/-! The report of a plan: the jobs of each stage, and what is pruned and why. -/

namespace BuildPipeline

structure ReportedJob where
  spec : Text
  hash : Text
  tags : List Text
  needs : List Text
deriving DecidableEq

structure ReportedStage where
  stage : Nat
  jobs : List ReportedJob
deriving DecidableEq

structure ReportedPruning where
  spec : Text
  hash : Text
  decision : Decision
deriving DecidableEq

structure PlanReport where
  platform : Text
  stages : List ReportedStage
  pruned : List ReportedPruning
deriving DecidableEq

def PlannedJob.reported (job : PlannedJob) : ReportedJob :=
  ⟨job.node.label, job.node.hash, job.attributes.tags, job.needs⟩

def JobPlan.reportedStages (plan : JobPlan) : List ReportedStage :=
  plan.stages.map fun stage => ⟨stage, (plan.jobs.filter (·.stage = stage)).map PlannedJob.reported⟩

/-- Nodes with a decision other than to keep them, in the order of the graph. -/
def PipelineGraph.reportedPruning (graph : PipelineGraph) (pruning : Pruning) : List ReportedPruning :=
  graph.nodes.filterMap fun node =>
    match pruning.decision? node.hash with
    | some decision =>
      if decision.status = .keep then none else some ⟨node.label, node.hash, decision⟩
    | none => none

def AnnotatedPipeline.report (pipeline : AnnotatedPipeline) (platform : Text) (plan : JobPlan) : PlanReport :=
  ⟨platform, plan.reportedStages, pipeline.graph.reportedPruning pipeline.pruning⟩

namespace PlanReport

def texts (values : List Text) : Report :=
  .list (values.map .text)

def jobReport (job : ReportedJob) : Report :=
  .object [("spec", .text job.spec), ("hash", .text job.hash), ("tags", texts job.tags), ("needs", texts job.needs)]

def json (report : PlanReport) : Report :=
  .object
    [("platform", .text report.platform),
     ("stages", .list (report.stages.map fun stage => .object
       [("stage", .number (.ofNat stage.stage)), ("jobs", .list (stage.jobs.map jobReport))])),
     ("pruned", .list (report.pruned.map fun entry => .object
       [("spec", .text entry.spec), ("hash", .text entry.hash),
        ("status", .text entry.decision.status.name), ("reason", .text entry.decision.reason)]))]

def jobLine (job : ReportedJob) : Text :=
  let needs : Text :=
    if job.needs.isEmpty then [] else " ← " ++ Text.join ", " (job.needs.map shortHash)
  "    " ++ job.spec ++ " /" ++ shortHash job.hash ++ " [" ++ Text.join ", " job.tags ++ "]" ++ needs

def prunedLine (entry : ReportedPruning) : Text :=
  "    " ++ entry.spec ++ " /" ++ shortHash entry.hash ++
    " (" ++ entry.decision.status.name ++ ": " ++ entry.decision.reason ++ ")"

def heading (report : PlanReport) : Text :=
  let jobs := (report.stages.flatMap ReportedStage.jobs).length
  "\nPipeline plan (" ++ report.platform ++ "): " ++ decimal jobs ++ " job(s) in " ++
    decimal report.stages.length ++ " stage(s)\n"

def stageLines (stage : ReportedStage) : List Text :=
  ("  stage-" ++ numeral stage.stage) :: stage.jobs.map jobLine

def prunedLines (entries : List ReportedPruning) : List Text :=
  if entries.isEmpty then [] else "\n  pruned" :: entries.map prunedLine

def lines (report : PlanReport) : List Text :=
  report.heading :: (report.stages.flatMap stageLines ++ prunedLines report.pruned ++ [[]])

end PlanReport

end BuildPipeline
