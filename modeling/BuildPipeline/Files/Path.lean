import BuildPipeline.Text.Blank
import BuildPipeline.Text.Surrogate

/-! Absolute paths in normal form: the names from the root down. -/

namespace BuildPipeline

/-- No name is empty, `.` or `..`. -/
structure Path where
  names : List Text
deriving DecidableEq

namespace Path

def root : Path := ⟨[]⟩

def text (path : Path) : Text :=
  "/" ++ Text.join "/" path.names

/-- The names after one more part; above the root there is only the root. -/
def enter (names : List Text) (part : Text) : List Text :=
  if part = "" || part = "." then names
  else if part = ".." then names.dropLast
  else names ++ [part]

/-- What a text denotes in this directory. A leading slash starts at the root. -/
def resolve (directory : Path) (text : Text) : Path :=
  let start := if text.head? = some (CodeUnit.ofChar '/') then [] else directory.names
  ⟨(text.split '/').foldl enter start⟩

/-- The path as names are kept in a file system. -/
def stored (path : Path) : Path :=
  ⟨path.names.map Text.stored⟩

def parent (path : Path) : Path :=
  ⟨path.names.dropLast⟩

/-- The root has no name. -/
def name (path : Path) : Text :=
  path.names.getLast?.getD ""

def child (path : Path) (name : Text) : Path :=
  ⟨path.names ++ [name]⟩

/-- The directories above a path, the root first. -/
def ancestors (path : Path) : List Path :=
  (List.range path.names.length).map fun count => ⟨path.names.take count⟩

/-- The name of the directory above. -/
def above : Text := ".."

/-- Drops what two lists have in common in front. -/
def withoutCommon : List Text → List Text → List Text × List Text
  | first :: rest, other :: others =>
    if first = other then withoutCommon rest others else (first :: rest, other :: others)
  | names, others => (names, others)

/-- The way from a directory to this path, empty for the directory itself. -/
def relativeTo (path directory : Path) : Text :=
  let (down, up) := withoutCommon path.names directory.names
  Text.join "/" (up.map (fun _ => above) ++ down)

end Path

end BuildPipeline
