import BuildPipeline.Text.Basic

/-! Why a pipeline cannot be made, and the text that says so. Job names are cut
by code units, so messages are given in too. -/

namespace BuildPipeline

/-- The attribute that a job lacks. -/
inductive RequiredField
  | tags
  | orderHint
deriving DecidableEq

namespace RequiredField

def name : RequiredField → Text
  | .tags => "tags"
  | .orderHint => "orderHint"

def demand : RequiredField → Text
  | .tags => "tags"
  | .orderHint => "non-negative orderHint"

end RequiredField

inductive PipelineError
  /-- Labels along the cycle, the first one again at the end. -/
  | cyclicDependency (cycle : List Text)
  | duplicateGenerator (platform : Text)
  | unknownGenerator (platform : Text) (known : List Text)
  | missingAttribute (hash label : Text) (field : RequiredField)
  /-- Two builds would be written under one job name. -/
  | duplicateJob (job first second : Text)
  | outputWrite (path cause : Text)
  | unknownDependency (name hash dependency : Text)
  | unknownRoot (hash : Text)
  | unresolvedJob (name hash : Text)
deriving DecidableEq

namespace PipelineError

def message : PipelineError → Text
  | .cyclicDependency cycle => "Cyclic dependency detected: " ++ Text.join " → " cycle
  | .duplicateGenerator platform =>
    "A generator is already registered for platform \"" ++ platform ++ "\""
  | .unknownGenerator platform known =>
    let listed : Text := if known.isEmpty then "(none)" else Text.join ", " known
    "No registered generator for platform \"" ++ platform ++ "\". Known platforms: " ++ listed
  | .missingAttribute hash label field =>
    "Job for " ++ label ++ " /" ++ hash.take 7 ++ " has no " ++ field.demand ++
      "; add a matching rule or ci.defaults entry"
  | .duplicateJob job first second =>
    "Job \"" ++ job ++ "\" would be emitted for both " ++ first ++ " and " ++ second
  | .outputWrite path cause => "Failed to write pipeline to " ++ path ++ ": " ++ cause
  | .unknownDependency name hash dependency =>
    "Node " ++ name ++ "/" ++ hash ++ " references unknown dependency " ++ dependency
  | .unknownRoot hash => "Unknown root " ++ hash
  | .unresolvedJob name hash => "No job attributes resolved for " ++ name ++ "/" ++ hash

end PipelineError

end BuildPipeline
