import BuildPipeline.Text.Blank

/-! Stack names made from directory names: lower-case letters, digits and dashes. -/

namespace BuildPipeline

def isNameUnit (unit : CodeUnit) : Bool :=
  isDigit unit || ('a' ≤ unit && unit ≤ 'z') || unit = '-'

/-- The lower case of a unit, with a dash for every unit outside a name. The
Kelvin sign lowers to `k`, and a dotted capital I to `i` and a combining dot. -/
def nameUnits (unit : CodeUnit) : Text :=
  let lowered := lowerUnit unit
  if isNameUnit lowered then [lowered]
  else if unit = 0x212A then "k"
  else if unit = 0x130 then "i-"
  else "-"

def dropDashes (text : Text) : Text :=
  text.dropWhile fun unit => unit = '-'

/-- Without dashes at the ends; `my-stack` when nothing is left. -/
def sanitizeStackName (directory : Text) : Text :=
  let name := dropDashes (directory.flatMap nameUnits)
  match (dropDashes name.reverse).reverse with
  | [] => "my-stack"
  | name => name

end BuildPipeline
