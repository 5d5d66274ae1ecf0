import BuildPipeline.Command.Run
import BuildPipeline.Document.Layout
import BuildPipeline.Platform.Registry
import BuildPipeline.StackName

/-! Writing a starter manifest. -/

namespace BuildPipeline

structure InitFlags where
  name : Option Text := none
  platform : Option Text := none
  /-- Replaces a manifest that is there. -/
  force : Bool := false
deriving DecidableEq

/-- An application and one dependency, built by default-tagged runners. -/
def starterManifest (name platform : Text) : Document :=
  .mapping
    [("name", .text name),
     ("roots", .ofTexts ["app"]),
     ("specs", .mapping
       [("app", .mapping
         [("name", .text "app"), ("version", .text "0.1.0"), ("dependencies", .ofTexts ["zlib"])]),
        ("zlib", .mapping [("name", .text "zlib"), ("version", .text "1.3.1")])]),
     ("ci", .mapping
       [("target", .text platform),
        ("defaults", .mapping [("tags", .ofTexts ["default"]), ("orderHint", .number 0)]),
        ("rules", .list []),
        ("pruneUpToDate", .boolean true),
        ("pruneBroken", .boolean true)])]

def nextSteps (name platform : Text) : List Text :=
  ["✅ Initialized stack: " ++ name, "\nNext steps:",
   "  stackci verify     Check " ++ manifestFile,
   "  stackci generate   Write the " ++ platform ++ " pipeline"]

variable {m : Type → Type} [Monad m] [FileSystem m]

/-- Without a name the stack is called after its directory. -/
def runInit (registry : Registry) (directory : Path) (flags : InitFlags) : m (CommandRun Text) := do
  let path := directory.child manifestFile
  if (← FileSystem.kind? path).isSome && !flags.force then return .failed [] .alreadyInitialized
  else
    let name := flags.name.getD (sanitizeStackName directory.name)
    let platform := flags.platform.getD defaultPlatform
    match registry.resolve platform with
    | .error error => return .failed [] (.pipeline error)
    | .ok _ =>
      match ← FileSystem.writeText path (starterManifest name platform).renderFolded with
      | .error fault => return .failed [] (.files fault)
      | .ok () => return { notes := nextSteps name platform, outcome := .ok name }

end BuildPipeline
