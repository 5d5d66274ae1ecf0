import BuildPipeline.Error
import BuildPipeline.Files.Basic

/-! Writing a file so that it is replaced as a whole or not at all: the text goes
to a temporary file beside it, which then takes its name. -/

namespace BuildPipeline

/-- A hidden sibling; the tag sets it apart from every other file. -/
def Path.temporary (target : Path) (tag : Text) : Path :=
  target.parent.child ("." ++ target.name ++ "." ++ tag ++ ".tmp")

variable {m : Type → Type} [Monad m] [FileSystem m]

/-- Stops at the first fault. -/
def replaceText (temporary target : Path) (text : Text) : m (Except FileFault Unit) := do
  match ← FileSystem.makeDirectory target.parent with
  | .error fault => return .error fault
  | .ok () =>
    match ← FileSystem.writeText temporary text with
    | .error fault => return .error fault
    | .ok () => FileSystem.rename temporary target

/-- After a fault the temporary file is removed. When that fails as well, the two faults
are reported together, without a message of their own. -/
def writeAtomic (tag : Text) (target : Path) (text : Text) : m (Except PipelineError Path) := do
  let temporary := target.temporary tag
  match ← replaceText temporary target text with
  | .ok () => return .ok target
  | .error fault =>
    match ← FileSystem.remove temporary with
    | .ok () => return .error (.outputWrite target.text fault.message)
    | .error _ => return .error (.outputWrite target.text "")

end BuildPipeline
