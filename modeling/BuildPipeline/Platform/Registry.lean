import BuildPipeline.Platform.Github
import BuildPipeline.Platform.Gitlab

/-! Platforms that pipelines can be written for, by name. -/

namespace BuildPipeline

structure Generator where
  platform : Text
  /-- Where the file goes when no output path is configured. -/
  defaultOutputPath : Text
  render : AnnotatedPipeline → CiConfig → PipelineOptions → Except PipelineError Text

def Generator.gitlab : Generator where
  platform := "gitlab"
  defaultOutputPath := ".gitlab-ci.yml"
  render := AnnotatedPipeline.renderGitlab

def Generator.github : Generator where
  platform := "github"
  defaultOutputPath := ".github/workflows/stackci.yml"
  render := AnnotatedPipeline.renderGithub

/-- Generators in the order of their registration. -/
abbrev Registry := List (Text × Generator)

namespace Registry

def platforms (registry : Registry) : List Text :=
  sortTexts (registry.map Prod.fst)

def register (registry : Registry) (platform : Text) (generator : Generator) :
    Except PipelineError Registry :=
  if platform ∈ registry.map Prod.fst then .error (.duplicateGenerator platform)
  else .ok (registry ++ [(platform, generator)])

def resolve (registry : Registry) (platform : Text) : Except PipelineError Generator :=
  match registry.lookup platform with
  | some generator => .ok generator
  | none => .error (.unknownGenerator platform registry.platforms)

def builtin : Registry :=
  [(Generator.gitlab.platform, .gitlab), (Generator.github.platform, .github)]

end Registry

end BuildPipeline
