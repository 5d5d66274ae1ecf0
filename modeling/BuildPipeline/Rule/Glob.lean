import BuildPipeline.Rule.Expression
import BuildPipeline.Text.Surrogate

/-! Glob patterns, written out as regular expressions that cover the whole text: a
star as any run and a question mark as one unit, neither of them a line end. -/

namespace BuildPipeline

namespace Glob

/-- The units that get a backslash. The star and the question mark never come here. -/
def escapedUnits : Text :=
  ".+^$\x7b\x7d()|[]\\"

def escape (unit : CodeUnit) : Text :=
  if unit ∈ escapedUnits then [CodeUnit.ofChar '\\', unit] else [unit]

def symbolSource (symbol : Symbol) : Text :=
  if symbol.units = "*" then ".*"
  else if symbol.units = "?" then "."
  else symbol.units.flatMap escape

def source (pattern : Text) : Text :=
  "^" ++ pattern.symbols.flatMap symbolSource ++ "$"

def compile? (pattern : Text) : Option Expression :=
  Expression.parse? (source pattern)

end Glob

/-- The pattern covers the whole text. -/
def globMatches (pattern text : Text) : Bool :=
  (Glob.compile? pattern).any fun expression => expression.tests text

end BuildPipeline
