import BuildPipeline.Files.Path

/-! What is asked of a file system. Every request names an absolute path, and all
but a look at what is there may fail. -/

namespace BuildPipeline

inductive FileFault
  | missing
  | notDirectory
  | isDirectory
  | nameTooLong
  | invalidName
  | other (detail : Text)
deriving DecidableEq

namespace FileFault

/-- The customary code of the fault. -/
def code : FileFault → Text
  | .missing => "ENOENT"
  | .notDirectory => "ENOTDIR"
  | .isDirectory => "EISDIR"
  | .nameTooLong => "ENAMETOOLONG"
  | .invalidName => "EINVAL"
  | .other _ => "EIO"

def detail : FileFault → Text
  | .missing => "no such file or directory"
  | .notDirectory => "not a directory"
  | .isDirectory => "illegal operation on a directory"
  | .nameTooLong => "name too long"
  | .invalidName => "invalid name"
  | .other detail => detail

def message (fault : FileFault) : Text :=
  fault.code ++ ": " ++ fault.detail

end FileFault

inductive EntryKind
  | file
  | directory
deriving DecidableEq

class FileSystem (m : Type → Type) where
  /-- What is at a path, if it can be reached. -/
  kind? : Path → m (Option EntryKind)
  readText : Path → m (Except FileFault Text)
  /-- Makes missing directories above it too; one that is there is left as it is. -/
  makeDirectory : Path → m (Except FileFault Unit)
  writeText : Path → Text → m (Except FileFault Unit)
  /-- Moves a file in one step, over a file that may be there. -/
  rename : Path → Path → m (Except FileFault Unit)
  /-- Removes a file; a missing one is no fault. -/
  remove : Path → m (Except FileFault Unit)

end BuildPipeline
