import BuildPipeline.Yaml.Lexeme

/-! How far the lines of a block scalar reach. Its header may fix the indentation;
otherwise the first line that is not blank does. -/

namespace BuildPipeline.Yaml

/-- What the header of a block scalar says about its lines. -/
structure BlockHeader where
  /-- How many spaces more than its surroundings the lines have. -/
  indentation : Option Nat := none
  /-- Blank lines at the end belong to the scalar. -/
  keeps : Bool := false
deriving DecidableEq

def headerLength (text : Text) : Nat :=
  (text.takeWhile fun unit => !endsWord (some unit) && unit ≠ '#').length

def isHeaderDigit (unit : CodeUnit) : Bool :=
  isDigit unit && unit ≠ '0'

def isHeaderSign (unit : CodeUnit) : Bool :=
  unit = '+' || unit = '-' || isHeaderDigit unit

/-- The last digit and any plus sign behind the first unit count. -/
def BlockHeader.ofText (text : Text) : BlockHeader :=
  let signs := (text.drop 1).takeWhile isHeaderSign
  { indentation := (signs.filter isHeaderDigit).getLast?.map fun digit => digit.toNat - 0x30
    keeps := signs.contains '+' }

/-- Lines together with the newlines that end them. -/
def splitLines : Text → List Text
  | [] => []
  | unit :: rest =>
    if unit = .newline then [unit] :: splitLines rest
    else match splitLines rest with
      | [] => [[unit]]
      | line :: lines => (unit :: line) :: lines

/-- The line without its line break. -/
def lineContent (line : Text) : Text :=
  let bare := if line.getLast? = some .newline then line.dropLast else line
  if bare.getLast? = some (CodeUnit.ofChar '\r') then bare.dropLast else bare

def isSpaces (text : Text) : Bool :=
  text.all (· = .space)

/-- Spaces alone, and ended by a line break. -/
def isBlankLine (line : Text) : Bool :=
  line.getLast? = some .newline && isSpaces (lineContent line)

/-- Without the blank lines at the end that are not indented further than `indent`;
the first line stays in any case. -/
def dropBlankEnd (indent : Nat) (lines : List Text) : List Text :=
  let isDropped (line : Text) : Bool :=
    isSpaces (lineContent line) && (lineContent line).length ≤ indent
  lines.take 1 ++ (((lines.drop 1).reverse.dropWhile isDropped).reverse)

def isWhite (unit : CodeUnit) : Bool :=
  endsWord (some unit)

/-- The lines of a block scalar, given the least indentation there, and the least
indentation to go on with. A tab in the indentation of the next line draws all
blanks from there on into the scalar. -/
def blockExtent (header : BlockHeader) (indentation : Nat) (text : Text) : Nat × Nat :=
  let lines := splitLines text
  let leading := lines.takeWhile isBlankLine
  let following := lines.drop leading.length
  let indent := spacesLength (following.headD [])
  let next :=
    if indent < indentation then indentation
    else match header.indentation with
      | none => indent
      | some more => more - 1 + (if indentation = 0 then 1 else indentation)
  let held := if indent < indentation then [] else following.takeWhile (continuesScalar next)
  let body := leading ++ held
  let behind := text.drop body.flatten.length
  if (behind.drop (spacesLength behind)).head? = some (CodeUnit.ofChar '\t') then
    (body.flatten.length + (behind.takeWhile isWhite).length, next)
  else if header.keeps then (body.flatten.length, next)
  else ((dropBlankEnd indent body).flatten.length, next)

end BuildPipeline.Yaml
