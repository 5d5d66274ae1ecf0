import BuildPipeline.Manifest.Source
import BuildPipeline.Options
import BuildPipeline.Signals.HashList

/-! Why a command fails, and the text that says so. -/

namespace BuildPipeline

inductive Failure
  | manifest (faults : List ManifestFault)
  | links (faults : List LinkFault)
  | depth (error : DepthError)
  | hashList (fault : HashListFault)
  | pipeline (error : PipelineError)
  | alreadyInitialized
  | files (fault : FileFault)

/-- A line for each fault, with its place in front. -/
def faultLines (faults : List (Text × Text)) : Text :=
  Text.join "\n" (faults.map fun (path, message) => path ++ ": " ++ message)

def Failure.message : Failure → Text
  | .manifest faults => faultLines (faults.map fun fault => (fault.path, fault.message))
  | .links faults => faultLines (faults.map fun fault => (fault.path, fault.message))
  | .depth error => error.message
  | .hashList fault => fault.message
  | .pipeline error => error.message
  | .alreadyInitialized => manifestFile ++ " already exists. Use --force to overwrite."
  | .files fault => fault.message

end BuildPipeline
