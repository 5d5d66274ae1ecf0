import BuildPipeline.Spec.Content
import BuildPipeline.Number.Basic

/-! A stack manifest: a table of builds, the roots to build, and how jobs are
configured. A field that a file leaves out is absent here too. -/

namespace BuildPipeline

/-- What a rule asks of a build. Every present field is a constraint. -/
structure RuleMatch where
  package : Option Text := none
  version : Option Text := none
  compiler : Option Text := none
  arch : Option Text := none
  variants : Option Variants := none
deriving DecidableEq

/-- What a rule sets on a job. -/
structure RuleAttributes where
  tags : Option (List Text) := none
  vars : Option (Table Text) := none
  orderHint : Option Number := none
  allowFailure : Option Bool := none
deriving DecidableEq

structure RuleConfig where
  predicate : Option RuleMatch := none
  attributes : RuleAttributes := {}
deriving DecidableEq

structure CiConfig where
  target : Option Text := none
  defaults : Option RuleAttributes := none
  rules : Option (List RuleConfig) := none
  script : Option (List Text) := none
  beforeScript : Option (List Text) := none
  image : Option Text := none
  rebuildIndex : Option Bool := none
  indexScript : Option (List Text) := none
  vars : Option (Table Text) := none
  artifactsRoot : Option Text := none
  pruneUpToDate : Option Bool := none
  pruneBroken : Option Bool := none
  pruneExternal : Option Bool := none
  affectedOnly : Option Bool := none
deriving DecidableEq

structure StackManifest where
  name : Text
  roots : List Text
  specs : Table SpecEntry
  ci : Option CiConfig := none
deriving DecidableEq

namespace StackManifest

def config (manifest : StackManifest) : CiConfig :=
  manifest.ci.getD {}

end StackManifest

/-- The name of the file that holds a manifest. -/
def manifestFile : Text := "stackci.yaml"

end BuildPipeline
