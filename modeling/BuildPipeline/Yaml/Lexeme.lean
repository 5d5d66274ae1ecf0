import BuildPipeline.Text.Blank

/-! Lexemes: the pieces that a YAML text is cut into. Joined again they give the
text, since blanks, comments and line breaks are lexemes too. -/

namespace BuildPipeline.Yaml

inductive Kind
  | byteOrderMark
  | blanks
  | newline
  | comment
  | directive
  /-- The three dashes before a document. -/
  | documentStart
  /-- The three dots behind a document. -/
  | documentEnd
  /-- Where a document begins, without a mark of its own in the text. -/
  | content
  | itemMark
  | keyMark
  | valueMark
  | openMapping
  | closeMapping
  | openList
  | closeList
  | comma
  /-- Where a collection in brackets is broken off for want of indentation. -/
  | breakOff
  | alias
  | anchor
  | tag
  | singleQuoted
  | doubleQuoted
  | blockHeader
  /-- A plain scalar, or the lines of a block scalar. -/
  | scalar
  /-- What nothing makes sense of. -/
  | stray
deriving DecidableEq

structure Lexeme where
  kind : Kind
  text : Text
deriving DecidableEq

/-- Whether a word ends before this unit, or at the end of the text. -/
def endsWord (next : Option CodeUnit) : Bool :=
  match next with
  | none => true
  | some unit => isSpaceOrTab unit || unit = .newline || unit = '\r'

/-- The brackets, braces and the comma, which end words inside collections. -/
def isFlowUnit (unit : CodeUnit) : Bool :=
  ("[]\x7b\x7d," : Text).contains unit

def isAnchorUnit (unit : CodeUnit) : Bool :=
  !isFlowUnit unit && !endsWord (some unit)

def startsLineBreak (text : Text) : Bool :=
  match text with
  | [] => false
  | unit :: rest => unit = .newline || (unit = '\r' && rest.head? = some .newline)

/-- The units of the first line, without its line break. -/
def lineLength : Text → Nat
  | [] => 0
  | unit :: rest => if startsLineBreak (unit :: rest) then 0 else lineLength rest + 1

def blanksLength (text : Text) : Nat :=
  (text.takeWhile isSpaceOrTab).length

def spacesLength (text : Text) : Nat :=
  (text.takeWhile (· = .space)).length

/-- Three dashes or three dots that stand as a word at the start of a line. -/
def documentMarker? (text : Text) : Option Kind :=
  if !endsWord text[3]? then none
  else if text.take 3 = "---" then some .documentStart
  else if text.take 3 = "..." then some .documentEnd
  else none

/-- Whether a scalar goes on with the line that starts here: the line is blank or
indented far enough, or at the outermost level no document marker. -/
def continuesScalar (indentation : Nat) (line : Text) : Bool :=
  if 0 < indentation then
    let spaces := spacesLength line
    indentation ≤ spaces || startsLineBreak (line.drop spaces)
  else (documentMarker? line).isNone

end BuildPipeline.Yaml
