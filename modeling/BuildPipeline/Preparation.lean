import BuildPipeline.Failure
import BuildPipeline.Plan.Assembly
import BuildPipeline.Platform.Registry

/-! Everything up to rendering: from the files that a run reads and its flags to a
pipeline with settled options. -/

namespace BuildPipeline

structure RunFlags extends PipelineFlags where
  /-- A manifest, or the directory that holds it. -/
  manifest : Option Text := none
  changed : Option Text := none
  available : Option Text := none
  broken : Option Text := none
deriving DecidableEq

/-- The directory and the variables that a run finds around it. -/
structure Surroundings where
  directory : Path
  environment : Environment

/-- What the files hold that a run reads. -/
structure RunInputs where
  manifest : ManifestSource
  available : Option (Except HashListFault (List Text)) := none
  broken : Option (Except HashListFault (List Text)) := none

/-- A run with its options settled, before signals are looked at. -/
structure SettledRun where
  manifest : StackManifest
  stack : LinkedStack
  generator : Generator
  options : PipelineOptions
  target : Path
  warnings : List Warning

structure PreparedPipeline where
  manifest : StackManifest
  generator : Generator
  options : PipelineOptions
  target : Path
  pipeline : AnnotatedPipeline

/-- The outcome of a preparation, and the warnings given on the way. -/
structure Preparation where
  warnings : List Warning
  outcome : Except Failure PreparedPipeline

/-- Without a list of changes nothing can be told unaffected. -/
def requireChanges (changed : Option Text) (options : PipelineOptions) :
    PipelineOptions × List Warning :=
  if options.affectedOnly && changed.isNone then
    ({ options with affectedOnly := false }, [.affectedWithoutChange])
  else (options, [])

def settle (registry : Registry) (surroundings : Surroundings) (flags : RunFlags)
    (source : ManifestSource) : Except Failure SettledRun := do
  let manifest ← source.load.mapError .manifest
  let stack ← manifest.link.mapError .links
  let generator ← (registry.resolve (selectPlatform flags.toPipelineFlags manifest.config)).mapError .pipeline
  let (options, warnings) ←
    (collectOptions flags.toPipelineFlags manifest.config generator.defaultOutputPath
      surroundings.environment).mapError .depth
  let (options, onChanges) := requireChanges flags.changed options
  let target := surroundings.directory.resolve options.outputPath
  return {
    manifest, stack, generator, target
    options := { options with outputPath := target.text }
    warnings := warnings ++ onChanges }

def gatherList (list : Option (Except HashListFault (List Text))) :
    Except Failure (Option (List Text)) :=
  match list with
  | none => .ok none
  | some (.ok hashes) => .ok (some hashes)
  | some (.error fault) => .error (.hashList fault)

def gatherSignals (inputs : RunInputs) (changed : Option Text) : Except Failure PruneSignals := do
  let available ← gatherList inputs.available
  let broken ← gatherList inputs.broken
  return { broken, available, changed := changed.map parseChanged }

def SettledRun.finish (run : SettledRun) (inputs : RunInputs) (changed : Option Text) :
    Except Failure PreparedPipeline := do
  let signals ← gatherSignals inputs changed
  let pipeline ←
    (run.stack.assemble run.manifest.config run.options.toPruneOptions signals).mapError .pipeline
  return { run with pipeline }

def prepare (registry : Registry) (surroundings : Surroundings) (flags : RunFlags)
    (inputs : RunInputs) : Preparation :=
  match settle registry surroundings flags inputs.manifest with
  | .error failure => ⟨[], .error failure⟩
  | .ok run => ⟨run.warnings, run.finish inputs flags.changed⟩

variable {m : Type → Type} [Monad m] [FileSystem m]

/-- A blank flag names no list. -/
def readSignalFile (directory : Path) (flag : Option Text) :
    m (Option (Except HashListFault (List Text))) := do
  match flag with
  | none => return none
  | some name => if name = "" then return none else return some (← readHashList (directory.resolve name))

def readInputs (directory : Path) (flags : RunFlags) : m RunInputs := do
  let manifest ← readManifest (directory.resolve (flags.manifest.getD "."))
  let available ← readSignalFile directory flags.available
  let broken ← readSignalFile directory flags.broken
  return { manifest, available, broken }

end BuildPipeline
