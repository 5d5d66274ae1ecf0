import BuildPipeline.Number.Basic
import BuildPipeline.Text.Basic

/-! What a scalar stands for. -/

namespace BuildPipeline.Yaml

inductive Atom
  | null
  | boolean (value : Bool)
  | number (value : Number)
  | text (value : Text)
  /-- A point in time. -/
  | instant
  | bytes (content : List UInt8)
  /-- The key of mappings whose members are merged in. -/
  | merge
deriving DecidableEq

/-- Whether two keys are one. What is not a number is never the same as anything,
and neither are two points in time or two runs of bytes. -/
def Atom.agrees : Atom → Atom → Bool
  | .null, .null => true
  | .boolean left, .boolean right => left = right
  | .number left, .number right => left = right && left ≠ .nan
  | .text left, .text right => left = right
  | _, _ => false

end BuildPipeline.Yaml
