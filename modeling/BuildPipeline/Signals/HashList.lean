import BuildPipeline.Files.Basic
import BuildPipeline.Signals.Basic
import BuildPipeline.Yaml.Reading

/-! Files that list fingerprints. -/

namespace BuildPipeline

inductive HashListFault
  | unreadable (path cause : Text)
  | malformed (path : Text)
deriving DecidableEq

def HashListFault.message : HashListFault → Text
  | .unreadable path cause => "Failed to read hash list " ++ path ++ ": " ++ cause
  | .malformed path =>
    "Hash list " ++ path ++ " must be a list of hashes or a mapping with a \"hashes\" list"

/-- The fingerprints that a file's text lists. -/
def parseHashList (path text : Text) : Except HashListFault (List Text) :=
  match Yaml.readYaml text with
  | .error fault => .error (.unreadable path fault.message)
  | .ok value =>
    match hashList? value with
    | some hashes => .ok hashes
    | none => .error (.malformed path)

variable {m : Type → Type} [Monad m] [FileSystem m]

def readHashList (path : Path) : m (Except HashListFault (List Text)) := do
  match ← FileSystem.readText path with
  | .ok text => return parseHashList path.text text
  | .error fault => return .error (.unreadable path.text fault.message)

end BuildPipeline
