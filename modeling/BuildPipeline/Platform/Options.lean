import BuildPipeline.Pruning
import BuildPipeline.Manifest.Basic

/-! Settled options of one run. -/

namespace BuildPipeline

structure PipelineOptions extends PruneOptions where
  platform : Text
  outputPath : Text
  printSummary : Bool := false
  artifactsRoot : Text
deriving DecidableEq

def switchText (value : Bool) : Text :=
  if value then "true" else "false"

namespace PipelineOptions

/-- Backslashes separate directories too. -/
def artifactsRootText (options : PipelineOptions) : Text :=
  options.artifactsRoot.map fun (unit : CodeUnit) => if unit = '\\' then '/' else unit

def rebuildsEverything (options : PipelineOptions) : Bool :=
  !options.pruneUpToDate && !options.affectedOnly

/-- The run's settings that jobs read. -/
def settings (options : PipelineOptions) : Table Text :=
  Table.ofEntries
    [("STACKCI_ARTIFACTS_ROOT", options.artifactsRootText),
     ("STACKCI_REBUILD_CHECK_UP_TO_DATE", switchText options.pruneUpToDate),
     ("STACKCI_REBUILD_EVERYTHING", switchText options.rebuildsEverything)]

end PipelineOptions

/-- The manifest's variables and the run's settings, which win. -/
def pipelineVariables (config : CiConfig) (options : PipelineOptions) : Table Text :=
  ((config.vars.getD Table.empty).merge options.settings).sorted

end BuildPipeline
