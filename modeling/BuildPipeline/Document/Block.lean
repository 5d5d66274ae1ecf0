import BuildPipeline.Document.Quoted
import BuildPipeline.Text.Blank

/-! Literal block scalars: lines as they are, under a header that says how the
text ends and whether it starts with spaces. -/

namespace BuildPipeline.Document

def isBlockBlank (unit : CodeUnit) : Bool :=
  unit = .newline || isSpaceOrTab unit

def isSpaceOrNewline (unit : CodeUnit) : Bool :=
  unit = .newline || unit = .space

/-- Indents whatever follows a run of newlines, even if nothing follows. -/
def indentLines (indent : Nat) : Text → Text
  | [] => []
  | .newline :: .newline :: rest => .newline :: indentLines indent (.newline :: rest)
  | .newline :: rest => .newline :: (spaces indent ++ indentLines indent rest)
  | unit :: rest => unit :: indentLines indent rest

/-- As `indentLines`, but a run of newlines at the very end stays bare. -/
def indentInnerLines (indent : Nat) : Text → Text
  | [] => []
  | [.newline] => [.newline]
  | .newline :: .newline :: rest => .newline :: indentInnerLines indent (.newline :: rest)
  | .newline :: rest => .newline :: (spaces indent ++ indentInnerLines indent rest)
  | unit :: rest => unit :: indentInnerLines indent rest

/-- The part of a text from its trailing blanks on. -/
def trailingBlanks (text : Text) : Text :=
  (text.reverse.takeWhile isBlockBlank).reverse

/-- A strip sign for no final newline, a keep sign for more than one. -/
def chompingSign (text ending : Text) : Text :=
  match ending.dropWhile (· ≠ .newline) with
  | [] => "-"
  | _ :: afterFirst => if ending.length = text.length || !afterFirst.isEmpty then "+" else []

/-- The leading spaces and newlines up to the last of the newlines. -/
def leadingBlankLines (text : Text) : Text :=
  ((text.takeWhile isSpaceOrNewline).reverse.dropWhile (· ≠ .newline)).reverse

def startsWithSpace (text : Text) : Bool :=
  (text.takeWhile isSpaceOrNewline).contains .space

/-- A last line of blanks alone would be lost. -/
def hasBlankLastLine (text : Text) : Bool :=
  let blanks := text.reverse.takeWhile isSpaceOrTab
  !blanks.isEmpty && (text.reverse.drop blanks.length).head? = some .newline

def dropFinalNewline (text : Text) : Text :=
  if text.getLast? = some .newline then text.dropLast else text

def literalBlock (indent : Nat) (text : Text) : Text :=
  let ending := trailingBlanks text
  let content := text.take (text.length - ending.length)
  let leading := leadingBlankLines content
  let middle := content.drop leading.length
  let indentation : Text := if startsWithSpace content then "2" else []
  "|" ++ indentation ++ chompingSign text ending ++ "\n" ++ spaces indent ++
    indentLines indent leading ++ indentLines indent middle ++
    indentInnerLines indent (dropFinalNewline ending)

def blockScalar (isKey : Bool) (indent : Nat) (text : Text) : Text :=
  if hasBlankLastLine text then quoted isKey indent text else literalBlock indent text

end BuildPipeline.Document
