import BuildPipeline.Platform.JobDocument
import BuildPipeline.Platform.JobKeys

/-! The GitHub workflow of a plan. -/

namespace BuildPipeline

namespace Github

def fallbackRunner : Text := "ubuntu-latest"

def isIdUnit (unit : CodeUnit) : Bool :=
  isAlphanumeric unit || unit = '_' || unit = '-'

/-- Letters and the underscore. -/
def isIdStart (unit : CodeUnit) : Bool :=
  isIdUnit unit && !isDigit unit && unit ≠ '-'

/-- Other units become dashes, and an id never starts with a digit or a dash. -/
def jobId (node : SpecNode) : Text :=
  let base : Text := node.name.map fun unit => if isIdUnit unit then unit else 0x2D
  let start : Text := if (base.head?.map isIdStart).getD false then [] else "pkg-"
  start ++ base ++ "-" ++ shortHash node.hash

def jobTitle (job : PlannedJob) : Text :=
  stageName job.stage ++ ": " ++ job.node.label ++ job.node.hashSuffix

def script (config : CiConfig) : List Text :=
  config.beforeScript.getD [] ++ config.script.getD defaultBuildScript

def step (command : Text) : Document :=
  .mapping [("run", .text command)]

def needs (ids : JobKeys) (job : PlannedJob) : List Text :=
  job.needs.filterMap fun hash => ids.lookup hash

def needsMember (ids : JobKeys) (job : PlannedJob) : List (Text × Document) :=
  let needs := needs ids job
  if needs.isEmpty then [] else [("needs", .list (needs.map .text))]

def buildJob (config : CiConfig) (ids : JobKeys) (job : PlannedJob) : Document :=
  .ofParts [
    [("name", .text (jobTitle job)), ("runs-on", .ofTexts job.attributes.tags)],
    needsMember ids job,
    Document.optionalMember "container" (config.imageName?.map .text),
    [("continue-on-error", .boolean job.attributes.allowFailure),
     ("env", .ofVariables job.attributes.vars),
     ("steps", .list ((script config).map step))]]

def emptyJob (config : CiConfig) : Document :=
  let runner := config.serviceTags
  .mapping
    [("runs-on", .ofTexts (if runner.isEmpty then [fallbackRunner] else runner)),
     ("steps", .list [step nothingToRebuild])]

def document (config : CiConfig) (options : PipelineOptions) (plan : JobPlan) :
    Except PipelineError Document := do
  let ids ← jobKeys (plan.jobs.map PlannedJob.node) jobId
  let jobs := plan.jobs.map fun job => (jobId job.node, buildJob config ids job)
  let listed : List (Text × Document) := if jobs.isEmpty then [("noop", emptyJob config)] else jobs
  return .mapping
    [("name", .text "stackci"),
     ("on", .mapping [("workflow_dispatch", .mapping [])]),
     ("env", .ofVariables (pipelineVariables config options)),
     ("jobs", .mapping listed)]

end Github

namespace AnnotatedPipeline

def renderGithub (pipeline : AnnotatedPipeline) (config : CiConfig) (options : PipelineOptions) :
    Except PipelineError Text := do
  return (← Github.document config options (← pipeline.plan)).render

end AnnotatedPipeline

end BuildPipeline
