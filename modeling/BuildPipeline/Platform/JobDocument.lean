import BuildPipeline.Platform.Options
import BuildPipeline.Plan.Jobs
import BuildPipeline.Document.Layout

/-! What the documents of all platforms have in common. -/

namespace BuildPipeline

/-- What a job runs when the manifest has no script. -/
def defaultBuildScript : List Text :=
  ["echo \"Building $STACKCI_JOB_SPEC_PKG_NAME@$STACKCI_JOB_SPEC_PKG_VERSION /$STACKCI_JOB_SPEC_HASH\""]

/-- What the only job of an empty plan runs. -/
def nothingToRebuild : Text := "echo \"All specs already up to date, nothing to rebuild.\""

def stageName (stage : Nat) : Text :=
  "stage-" ++ numeral stage

namespace CiConfig

/-- The default tags that jobs other than builds may use. -/
def serviceTags (config : CiConfig) : List Text :=
  withoutReservedTags ((config.defaults.bind RuleAttributes.tags).getD [])

/-- An empty image name counts as none. -/
def imageName? (config : CiConfig) : Option Text :=
  config.image.filter (· ≠ "")

end CiConfig

namespace Document

def ofVariables (table : Table Text) : Document :=
  .mapping (table.entries.map fun entry => (entry.1, .text entry.2))

def optionalMember (key : Text) (value : Option Document) : List (Text × Document) :=
  (value.map fun value => (key, value)).toList

end Document

end BuildPipeline
