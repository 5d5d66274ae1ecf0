import BuildPipeline.Yaml.BlockExtent
import BuildPipeline.Yaml.Extent

/-! Cutting a text into lexemes. The scanner is in one of four modes: between
documents, where a block may begin, inside a block, and inside brackets. -/

namespace BuildPipeline.Yaml

inductive Mode
  | stream
  | blockStart
  | content
  | flow
deriving DecidableEq

structure Scanner where
  rest : Text
  mode : Mode := .stream
  /-- The indentation of the current line, marks of a block in it included. -/
  indent : Nat := 0
  /-- The least indentation of further lines of what is open. -/
  indentNext : Nat := 0
  /-- So many brackets are open. -/
  flowLevel : Nat := 0
  /-- Just behind something that can be a key before a colon without a blank. -/
  flowKey : Bool := false
  /-- The lexemes so far, the latest first. -/
  done : List Lexeme := []

namespace Scanner

variable (scanner : Scanner)

/-- Cuts off a lexeme, which may be empty. -/
def cut (kind : Kind) (length : Nat) : Scanner :=
  { scanner with rest := scanner.rest.drop length, done := ⟨kind, scanner.rest.take length⟩ :: scanner.done }

/-- Cuts off a lexeme unless it would be empty. -/
def take (kind : Kind) (length : Nat) : Scanner :=
  if length = 0 then scanner else scanner.cut kind length

def takeBlanks : Scanner :=
  scanner.take .blanks (blanksLength scanner.rest)

def takeNewline : Scanner :=
  if startsLineBreak scanner.rest then
    scanner.take .newline (if scanner.rest.head? = some .newline then 1 else 2)
  else scanner

/-- What is left of the line, which must be a comment. -/
def takeComment : Scanner :=
  let length := lineLength scanner.rest
  scanner.take (if scanner.rest.head? = some (CodeUnit.ofChar '#') then .comment else .stray) length

def inFlow : Bool :=
  scanner.flowLevel ≠ 0

/-- The first unit of what is left of the line. -/
def ahead? : Option CodeUnit :=
  if startsLineBreak scanner.rest then none else scanner.rest.head?

def isAhead (character : Char) : Bool :=
  scanner.ahead? = some (CodeUnit.ofChar character)

def blockMark? (unit : CodeUnit) : Option Kind :=
  if unit = '-' then some .itemMark
  else if unit = '?' then some .keyMark
  else if unit = ':' then some .valueMark
  else none

/-- An item, key or value mark, given whether one may stand before the next unit. -/
def markAhead? (mayStand : Option CodeUnit → Bool) : Option Kind :=
  match scanner.rest with
  | [] => none
  | unit :: rest => if mayStand rest.head? then blockMark? unit else none

/-- Each mark of a block moves its indentation to the right. -/
def startBlock : Scanner :=
  match scanner.markAhead? endsWord with
  | some kind =>
    let marked := scanner.take kind 1
    let blanks := blanksLength marked.rest
    { marked.takeBlanks with
      indentNext := scanner.indent + 1, indent := scanner.indent + 1 + blanks, mode := .blockStart }
  | none => { scanner with mode := .content }

/-- The indentation of a line closes what is indented further. -/
def startIndented : Scanner :=
  let spaces := spacesLength scanner.rest
  let indented := scanner.take .blanks spaces
  let indentNext :=
    if spaces < scanner.indentNext && !endsWord indented.rest[1]? then spaces else scanner.indentNext
  { indented with indent := spaces, indentNext }.startBlock

def startLine : Scanner :=
  match documentMarker? scanner.rest with
  | some kind =>
    { scanner.take kind 3 with
      indent := 0, indentNext := 0, mode := if kind = .documentStart then .content else .stream }
  | none => scanner.startIndented

/-- A mark inside a block opens a block; in brackets it only parts key and value. -/
def noteMark : Scanner :=
  if scanner.inFlow then { scanner with flowKey := false }
  else { scanner with indentNext := scanner.indent + 1 }

/-- Tags, anchors and marks, with the blanks behind each of them. -/
def takeIndicators : Nat → Scanner → Scanner
  | 0, scanner => scanner
  | fuel + 1, scanner =>
    if scanner.rest.head? = some (CodeUnit.ofChar '!') then
      takeIndicators fuel (scanner.take .tag (tagLength scanner.rest)).takeBlanks
    else if scanner.rest.head? = some (CodeUnit.ofChar '&') then
      takeIndicators fuel (scanner.take .anchor (anchorLength scanner.rest)).takeBlanks
    else
      match scanner.markAhead? (endsKey scanner.inFlow) with
      | some kind => takeIndicators fuel (scanner.noteMark.take kind 1).takeBlanks
      | none => scanner

def indicators : Scanner :=
  takeIndicators scanner.rest.length scanner

/-- Back to the mode that the brackets call for. -/
def resume : Scanner :=
  { scanner with mode := if scanner.inFlow then .flow else .content }

def takeAlias : Scanner :=
  (scanner.take .alias (anchorLength scanner.rest)).resume

def takeQuoted (kind : Kind) : Scanner :=
  (scanner.take kind (quotedLength scanner.indentNext scanner.rest)).resume

def takePlain : Scanner :=
  (scanner.cut .scalar (plainLength scanner.inFlow scanner.indentNext 0 0 scanner.rest)).resume

def takeBlockScalar : Scanner :=
  let header := headerLength scanner.rest
  let opened := ((scanner.take .blockHeader header).takeBlanks.takeComment).takeNewline
  let (length, indentNext) :=
    blockExtent (.ofText (scanner.rest.take header)) opened.indentNext opened.rest
  { opened.cut .scalar length with indentNext }.startLine

def openBracket (kind : Kind) : Scanner :=
  { scanner.take kind 1 with flowLevel := scanner.flowLevel + 1, flowKey := false, mode := .flow }

/-- Inside a block a bracket that closes nothing is passed on as it is. -/
def closeBracket (kind : Kind) : Scanner :=
  { scanner.take kind 1 with flowLevel := scanner.flowLevel - 1, flowKey := scanner.inFlow }.resume

/-- The part of a directive before its comment. -/
def directiveLength : Text → Nat
  | [] => 0
  | unit :: rest =>
    if isSpaceOrTab unit && rest.head? = some (CodeUnit.ofChar '#') then 0 else directiveLength rest + 1

def stepStream : Scanner :=
  let scanner := if scanner.rest.head? = some 0xFEFF then scanner.take .byteOrderMark 1 else scanner
  if scanner.isAhead '%' then
    let line := scanner.rest.take (lineLength scanner.rest)
    let directive := Text.dropEndWhile isSpaceOrTab (line.take (directiveLength line))
    (scanner.take .directive directive.length).takeBlanks.takeComment.takeNewline
  else
    let next := (scanner.rest.dropWhile isSpaceOrTab)
    if next.isEmpty || startsLineBreak next || next.head? = some (CodeUnit.ofChar '#') then
      scanner.takeBlanks.takeComment.takeNewline
    else (scanner.cut .content 0).startLine

/-- What both a block and brackets may hold next, if it is one of these. -/
def takeNode? : Option Scanner :=
  if scanner.isAhead '\x7b' then some (scanner.openBracket .openMapping)
  else if scanner.isAhead '[' then some (scanner.openBracket .openList)
  else if scanner.isAhead '\x7d' then some (scanner.closeBracket .closeMapping)
  else if scanner.isAhead ']' then some (scanner.closeBracket .closeList)
  else if scanner.isAhead '*' then some scanner.takeAlias
  else if scanner.isAhead '"' then some ({ scanner with flowKey := true }.takeQuoted .doubleQuoted)
  else if scanner.isAhead '\'' then some ({ scanner with flowKey := true }.takeQuoted .singleQuoted)
  else none

def stepContent : Scanner :=
  let scanner := scanner.takeBlanks.indicators
  if scanner.ahead?.isNone || scanner.isAhead '#' then scanner.takeComment.takeNewline.startLine
  else
    match scanner.takeNode? with
    | some taken => taken
    | none =>
      if scanner.isAhead '|' || scanner.isAhead '>' then scanner.takeBlockScalar else scanner.takePlain

/-- Line breaks and blanks inside brackets, and the indentation of the last line
that begins there. -/
def takeFlowBlanks : Nat → Option Nat → Scanner → Option Nat × Scanner
  | 0, indent, scanner => (indent, scanner)
  | fuel + 1, indent, scanner =>
    if startsLineBreak scanner.rest then
      let scanner := scanner.takeNewline
      let spaces := spacesLength scanner.rest
      takeFlowBlanks fuel (some spaces)
        { scanner.take .blanks spaces with indent := spaces }.takeBlanks
    else if (scanner.rest.head?.map isSpaceOrTab).getD false then
      takeFlowBlanks fuel indent scanner.takeBlanks
    else (indent, scanner)

/-- Whether a line with this indentation breaks off what is in brackets. Only the
bracket that closes the outermost one may be indented less. -/
def breaksOff (indent : Option Nat) : Bool :=
  match indent with
  | none => false
  | some indent =>
    let outside := (indent < scanner.indentNext && !scanner.isAhead '#') ||
      (indent = 0 && (documentMarker? scanner.rest).isSome)
    let closes := indent + 1 = scanner.indentNext && scanner.flowLevel = 1 &&
      (scanner.isAhead ']' || scanner.isAhead '\x7d')
    outside && !closes

def takeCommas : Nat → Scanner → Scanner
  | 0, scanner => scanner
  | fuel + 1, scanner =>
    if scanner.isAhead ',' then takeCommas fuel { (scanner.take .comma 1).takeBlanks with flowKey := false }
    else scanner

/-- A colon that parts a key from its value. -/
def isFlowValueMark : Bool :=
  scanner.isAhead ':' && (scanner.flowKey || endsWord scanner.rest[1]? ||
    scanner.rest[1]? = some (CodeUnit.ofChar ','))

def stepFlow : Scanner :=
  let (indent, scanner) := takeFlowBlanks scanner.rest.length none scanner
  if scanner.breaksOff indent then { scanner with flowLevel := 0 }.cut .breakOff 0 |>.startLine
  else
    let scanner := (takeCommas scanner.rest.length scanner).indicators
    if scanner.ahead?.isNone then scanner
    else if scanner.isAhead '#' then scanner.takeComment
    else
      match scanner.takeNode? with
      | some taken => taken
      | none =>
        if scanner.isFlowValueMark then { (scanner.take .valueMark 1).takeBlanks with flowKey := false }
        else { scanner with flowKey := false }.takePlain

def step : Scanner :=
  match scanner.mode with
  | .stream => scanner.stepStream
  | .blockStart => scanner.startBlock
  | .content => scanner.stepContent
  | .flow => scanner.stepFlow

def run : Nat → Scanner → Scanner
  | 0, scanner => scanner
  | fuel + 1, scanner => if scanner.rest.isEmpty then scanner else run fuel scanner.step

end Scanner

/-- At most three steps in a row leave the text as it is. -/
def lexemes (text : Text) : List Lexeme :=
  (Scanner.run (4 * (text.length + 1)) { rest := text }).done.reverse

end BuildPipeline.Yaml
