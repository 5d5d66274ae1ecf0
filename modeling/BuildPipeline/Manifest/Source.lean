import BuildPipeline.Files.Basic
import BuildPipeline.Manifest.Check
import BuildPipeline.Manifest.Link
import BuildPipeline.Manifest.Reading
import BuildPipeline.Yaml.Reading

/-! Manifests in files: where one is looked for, what is found there, and whether
that is a manifest. -/

namespace BuildPipeline

/-- What is found where a manifest should be. -/
inductive ManifestSource
  | missing
  | unreadable (cause : Text)
  | holds (value : Value)

/-- Why there is no manifest to work with. -/
inductive ManifestFault
  | missing
  | unreadable (cause : Text)
  | malformed (fault : Fault)
deriving DecidableEq

def missingMessage : Text := manifestFile ++ " not found"

def unreadableMessage (cause : Text) : Text :=
  "Failed to parse " ++ manifestFile ++ ": " ++ cause

namespace ManifestFault

def path : ManifestFault → Text
  | .malformed fault => fault.path
  | _ => manifestFile

def message : ManifestFault → Text
  | .missing => missingMessage
  | .unreadable cause => unreadableMessage cause
  | .malformed fault => fault.message

end ManifestFault

/-- Every fault of the value is reported. -/
def Value.checkManifest (value : Value) : Except (List Fault) StackManifest :=
  match manifestFaults value with
  | [] => .ok value.manifest
  | faults => .error faults

def ManifestSource.load : ManifestSource → Except (List ManifestFault) StackManifest
  | .missing => .error [.missing]
  | .unreadable cause => .error [.unreadable cause]
  | .holds value =>
    match value.checkManifest with
    | .ok manifest => .ok manifest
    | .error faults => .error (faults.map .malformed)

def ManifestSource.ofText (text : Text) : ManifestSource :=
  match Yaml.readYaml text with
  | .ok value => .holds value
  | .error fault => .unreadable fault.message

variable {m : Type → Type} [Monad m] [FileSystem m]

/-- A directory stands for the manifest in it. -/
def locateManifest (location : Path) : m Path := do
  if (← FileSystem.kind? location) = some .directory then return location.child manifestFile
  else return location

def readManifest (location : Path) : m ManifestSource := do
  let path ← locateManifest location
  if (← FileSystem.kind? path).isNone then return .missing
  else
    match ← FileSystem.readText path with
    | .ok text => return .ofText text
    | .error fault => return .unreadable fault.message

end BuildPipeline
