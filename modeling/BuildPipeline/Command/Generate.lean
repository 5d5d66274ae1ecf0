import BuildPipeline.Command.Run
import BuildPipeline.Files.Atomic
import BuildPipeline.Preparation
import BuildPipeline.Pruning.Summary

/-! Writing the pipeline for a stack. Nothing is written unless all before it,
rendering included, succeeds. -/

namespace BuildPipeline

structure Generated where
  platform : Text
  outputPath : Text
  jobs : Nat
  pruned : Nat
deriving DecidableEq

namespace PreparedPipeline

/-- How many nodes become jobs, and how many do not. -/
def jobCount (prepared : PreparedPipeline) : Nat :=
  (prepared.pipeline.graph.keptNodes prepared.pipeline.pruning).length

def prunedCount (prepared : PreparedPipeline) : Nat :=
  prepared.pipeline.graph.size - prepared.jobCount

def summaryLines (prepared : PreparedPipeline) : List Text :=
  if prepared.options.printSummary then prepared.pipeline.graph.pruningSummary prepared.pipeline.pruning
  else []

def render (prepared : PreparedPipeline) : Except PipelineError Text :=
  prepared.generator.render prepared.pipeline prepared.manifest.config prepared.options

def generated (prepared : PreparedPipeline) : Generated where
  platform := prepared.generator.platform
  outputPath := prepared.target.text
  jobs := prepared.jobCount
  pruned := prepared.prunedCount

/-- The path as seen from the working directory. -/
def shownPath (prepared : PreparedPipeline) (directory : Path) : Text :=
  let path := prepared.target.relativeTo directory
  if path = "" then prepared.target.text else path

def successLine (prepared : PreparedPipeline) (directory : Path) : Text :=
  "✅ Generated " ++ prepared.generator.platform ++ " pipeline with " ++ decimal prepared.jobCount ++
    " job(s): " ++ prepared.shownPath directory

variable {m : Type → Type} [Monad m] [FileSystem m]

def generateRun (prepared : PreparedPipeline) (directory : Path) (tag : Text) : m (CommandRun Generated) := do
  match prepared.render with
  | .error error => return .failed prepared.summaryLines (.pipeline error)
  | .ok text =>
    match ← writeAtomic tag prepared.target text with
    | .error error => return .failed prepared.summaryLines (.pipeline error)
    | .ok _ =>
      return {
        notes := prepared.summaryLines ++ [prepared.successLine directory]
        outcome := .ok prepared.generated }

end PreparedPipeline

variable {m : Type → Type} [Monad m] [FileSystem m]

/-- The tag names the temporary file. -/
def runGenerate (registry : Registry) (surroundings : Surroundings) (flags : RunFlags) (tag : Text) :
    m (CommandRun Generated) := do
  let inputs ← readInputs surroundings.directory flags
  let preparation := prepare registry surroundings flags inputs
  let warnings := preparation.warnings.map Warning.message
  match preparation.outcome with
  | .error failure => return .failed warnings failure
  | .ok prepared => return (← prepared.generateRun surroundings.directory tag).after warnings

end BuildPipeline
