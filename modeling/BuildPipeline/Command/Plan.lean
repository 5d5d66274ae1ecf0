import BuildPipeline.Command.Run
import BuildPipeline.Plan.Report
import BuildPipeline.Preparation

/-! Showing the stages and jobs that a pipeline would have. -/

namespace BuildPipeline

/-- The lines for a reader go to the standard error, JSON to the standard output. -/
def PlanReport.run (json : Bool) (report : PlanReport) : CommandRun PlanReport :=
  if json then { output := [report.json.render], outcome := .ok report }
  else { notes := report.lines, outcome := .ok report }

def PreparedPipeline.planRun (prepared : PreparedPipeline) (json : Bool) : CommandRun PlanReport :=
  match prepared.pipeline.plan with
  | .error error => .failed [] (.pipeline error)
  | .ok plan => (prepared.pipeline.report prepared.generator.platform plan).run json

def Preparation.planRun (preparation : Preparation) (json : Bool) : CommandRun PlanReport :=
  let warnings := preparation.warnings.map Warning.message
  match preparation.outcome with
  | .error failure => .failed warnings failure
  | .ok prepared => (prepared.planRun json).after warnings

variable {m : Type → Type} [Monad m] [FileSystem m]

def runPlan (registry : Registry) (surroundings : Surroundings) (flags : RunFlags) (json : Bool) :
    m (CommandRun PlanReport) := do
  let inputs ← readInputs surroundings.directory flags
  return (prepare registry surroundings flags inputs).planRun json

end BuildPipeline
