import BuildPipeline.Platform.JobDocument
import BuildPipeline.Platform.JobKeys

/-! The GitLab pipeline of a plan. -/

namespace BuildPipeline

namespace Gitlab

def jobRetryConditions : List Text :=
  ["unknown_failure", "script_failure", "api_failure", "stuck_or_timeout_failure",
   "runner_system_failure", "runner_unsupported", "stale_schedule", "archived_failure",
   "unmet_prerequisites", "scheduler_failure", "data_integrity_failure"]

def serviceRetryConditions : List Text :=
  ["runner_system_failure", "stuck_or_timeout_failure", "script_failure"]

def defaultIndexScript : List Text := ["echo \"Rebuilding build cache index\""]

/-- Job names have at most this many units. -/
def longestJobName : Nat := 255

/-- A long label is cut before the short fingerprint, which is always kept. -/
def jobName (node : SpecNode) : Text :=
  let ending := node.hashSuffix
  node.label.take (longestJobName - ending.length) ++ ending

def retry (conditions : List Text) : Document :=
  .mapping [("max", .number 2), ("when", .ofTexts conditions)]

def need (name : Text) : Document :=
  .mapping [("job", .text name), ("artifacts", .boolean false)]

def needs (names : JobKeys) (job : PlannedJob) : Document :=
  .list (job.needs.filterMap fun hash => (names.lookup hash).map need)

def imageMember (config : CiConfig) : List (Text × Document) :=
  Document.optionalMember "image" (config.imageName?.map .text)

def buildJob (config : CiConfig) (names : JobKeys) (job : PlannedJob) : Document :=
  .ofParts [
    [("stage", .text (stageName job.stage)), ("tags", .ofTexts job.attributes.tags)],
    imageMember config,
    [("variables", .ofVariables job.attributes.vars)],
    Document.optionalMember "before_script" (config.beforeScript.map .ofTexts),
    [("script", .ofTexts (config.script.getD defaultBuildScript)),
     ("needs", needs names job),
     ("allow_failure", .boolean job.attributes.allowFailure),
     ("retry", retry jobRetryConditions),
     ("interruptible", .boolean true)]]

/-- Service jobs without tags run anywhere. -/
def serviceTagsMember (config : CiConfig) : List (Text × Document) :=
  let tags := config.serviceTags
  if tags.isEmpty then [] else [("tags", .ofTexts tags)]

def indexStage : Text := "stage-rebuild-index"

def indexJob (config : CiConfig) : Document :=
  .ofParts [
    [("stage", .text indexStage)], serviceTagsMember config, imageMember config,
    [("script", .ofTexts (config.indexScript.getD defaultIndexScript)),
     ("when", .text "always"),
     ("retry", retry serviceRetryConditions),
     ("interruptible", .boolean true),
     ("dependencies", .list [])]]

def emptyJob (config : CiConfig) : Document :=
  .ofParts [
    serviceTagsMember config,
    [("script", .ofTexts [nothingToRebuild]), ("retry", .number 0), ("allow_failure", .boolean true)]]

def rebuildsIndex (config : CiConfig) : Bool :=
  config.rebuildIndex.getD false

/-- What an empty plan has instead of build jobs. -/
def emptyMembers (config : CiConfig) : List (Text × Document) :=
  [("no-specs-to-rebuild", emptyJob config)]

/-- What stands next to build jobs. -/
def planMembers (config : CiConfig) (options : PipelineOptions) (stages : List Nat) :
    List (Text × Document) :=
  let names := stages.map stageName
  let indexed : List (Text × Document) :=
    if rebuildsIndex config then [("rebuild-index", indexJob config)] else []
  let listed := if rebuildsIndex config then names ++ [indexStage] else names
  indexed ++ ([("stages", .ofTexts listed), ("variables", .ofVariables (pipelineVariables config options))] :
    List (Text × Document))

/-- Entries other than the build jobs. -/
def fixedMembers (config : CiConfig) (options : PipelineOptions) (plan : JobPlan) :
    List (Text × Document) :=
  let members := if plan.jobs.isEmpty then emptyMembers config else planMembers config options plan.stages
  members ++ ([("workflow", .mapping [("rules", .list [.mapping [("when", .text "always")]])])] :
    List (Text × Document))

def document (config : CiConfig) (options : PipelineOptions) (plan : JobPlan) :
    Except PipelineError Document := do
  let names ← jobKeys (plan.jobs.map PlannedJob.node) jobName
  let jobs := plan.jobs.map fun job => (jobName job.node, buildJob config names job)
  let members := jobs ++ fixedMembers config options plan
  return .mapping (sortBy (fun left right => textLe left.1 right.1) members)

end Gitlab

namespace AnnotatedPipeline

def renderGitlab (pipeline : AnnotatedPipeline) (config : CiConfig) (options : PipelineOptions) :
    Except PipelineError Text := do
  return (← Gitlab.document config options (← pipeline.plan)).render

end AnnotatedPipeline

end BuildPipeline
