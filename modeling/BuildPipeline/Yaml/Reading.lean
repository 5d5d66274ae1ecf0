import BuildPipeline.Yaml.Building
import BuildPipeline.Yaml.Evaluation
import BuildPipeline.Yaml.Scanner

/-! A YAML text as the value that its document stands for. -/

namespace BuildPipeline.Yaml

/-- A text without a document stands for null. -/
def readYaml (text : Text) : Except Fault Value := do
  match ← readStream (← partsOf (lexemes text)) with
  | some reading => reading.value
  | none => return .null

end BuildPipeline.Yaml
