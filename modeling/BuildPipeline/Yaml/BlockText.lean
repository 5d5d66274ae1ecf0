import BuildPipeline.Yaml.Fault
import BuildPipeline.Yaml.Outline

/-! The text of a block scalar: lines without their indentation, kept as they are or
folded, and with as many line breaks at the end as the header asks for. -/

namespace BuildPipeline.Yaml

inductive Chomping
  | strip
  | clip
  | keep
deriving DecidableEq

/-- The header of a block scalar, read strictly. -/
structure BlockStyle where
  isFolded : Bool
  chomping : Chomping
  /-- Zero when the lines decide. -/
  indentation : Nat
deriving DecidableEq

def chomping? (unit : CodeUnit) : Option Chomping :=
  if unit = '-' then some .strip else if unit = '+' then some .keep else none

/-- At most one sign and one digit, in any order. -/
def readBlockSigns : Text → Option Chomping → Option Nat → Option (Option Chomping × Option Nat)
  | [], chomping, indentation => some (chomping, indentation)
  | unit :: rest, chomping, indentation =>
    match chomping? unit, chomping, indentation with
    | some found, none, indentation => readBlockSigns rest (some found) indentation
    | none, chomping, none =>
      if isDigit unit && unit ≠ '0' then readBlockSigns rest chomping (some (unit.toNat - 0x30)) else none
    | _, _, _ => none

def BlockStyle.ofText? (text : Text) : Option BlockStyle :=
  match text with
  | [] => none
  | mode :: signs => do
    let (chomping, indentation) ← readBlockSigns signs none none
    return ⟨mode = '>', chomping.getD .clip, indentation.getD 0⟩

/-- A line cut behind its leading spaces. -/
structure BlockLine where
  indent : Nat
  content : Text
deriving DecidableEq

namespace BlockLine

def ofText (line : Text) : BlockLine :=
  let spaces := (line.takeWhile (· = .space)).length
  ⟨spaces, line.drop spaces⟩

/-- Without the carriage return before a line break. -/
def bare (line : BlockLine) : BlockLine :=
  if line.content.getLast? = some (CodeUnit.ofChar '\r') then ⟨line.indent, line.content.dropLast⟩ else line

def isEmpty (line : BlockLine) : Bool :=
  line.bare.content.isEmpty

/-- The spaces beyond the indentation, and the content. -/
def textFrom (indentation : Nat) (line : BlockLine) : Text :=
  List.replicate (line.indent - indentation) .space ++ line.content

end BlockLine

/-- The lines of a body; one that ends in a line break has an empty last line. -/
def blockLines (body : Text) : List BlockLine :=
  if body.isEmpty then [] else (body.split .newline).map .ofText

/-- The indentation that is taken off, found from the first line with content and the
empty ones before it. -/
def contentIndent (style : BlockStyle) (base : Nat) (atRoot : Bool) (empty : List BlockLine)
    (first : BlockLine) : Except Fault Nat :=
  let least := base + style.indentation
  let least := if style.indentation = 0 then empty.foldl (fun least line => max least line.indent) least else least
  if first.indent < least then .error .badIndentation
  else
    let found := if style.indentation = 0 then first.indent else least
    if found = 0 && !atRoot then .error .badIndentation else .ok found

/-- Where folding has got to: what to put before the next line, and whether the last
line was indented further. -/
structure FoldedLines where
  text : Text := []
  separator : Text := []
  wasDeeper : Bool := false

/-- Lines that are indented further, or start with a tab, keep their line breaks. -/
def FoldedLines.add (indentation : Nat) (folded : FoldedLines) (line : BlockLine) : FoldedLines :=
  let isSpace := folded.separator = [.space]
  let isNewline := folded.separator = [.newline]
  if indentation < line.indent || line.content.head? = some (CodeUnit.ofChar '\t') then
    let separator : Text :=
      if isSpace then "\n" else if !folded.wasDeeper && isNewline then "\n\n" else folded.separator
    { text := folded.text ++ separator ++ line.textFrom indentation, separator := "\n", wasDeeper := true }
  else if line.content.isEmpty then
    if isNewline then { folded with text := folded.text ++ "\n" } else { folded with separator := "\n" }
  else { text := folded.text ++ folded.separator ++ line.content, separator := " " }

def joinBlockLines (style : BlockStyle) (indentation : Nat) (lines : List BlockLine) : Text :=
  if style.isFolded then (lines.foldl (FoldedLines.add indentation) {}).text
  else Text.join "\n" (lines.map (·.textFrom indentation))

def chomp (chomping : Chomping) (indentation : Nat) (text : Text) (rest : List BlockLine) : Text :=
  match chomping with
  | .strip => text
  | .clip => text ++ "\n"
  | .keep =>
    let kept := text ++ rest.flatMap fun line =>
      .newline :: List.replicate (line.indent - indentation) .space
    if kept.getLast? = some .newline then kept else kept ++ "\n"

/-- The number of lines up to the last that satisfies the test. -/
def countThrough (test : BlockLine → Bool) (lines : List BlockLine) : Nat :=
  (lines.reverse.dropWhile (!test ·)).length

/-- A body without content has line breaks only if they are to be kept. -/
def emptyBlockText (chomping : Chomping) (lines : List BlockLine) : Text :=
  if chomping = .keep && !lines.isEmpty then List.replicate (max 1 (lines.length - 1)) .newline else []

/-- The text of a block scalar in surroundings with the given indentation. -/
def blockText (style : BlockStyle) (base : Nat) (atRoot : Bool) (body : Text) : Except Fault Text := do
  let lines := blockLines body
  let leading := lines.takeWhile BlockLine.isEmpty
  match lines.drop leading.length with
  | [] => .ok (emptyBlockText style.chomping lines)
  | first :: following =>
    let indentation ← contentIndent style base atRoot leading first
    let filled := countThrough (fun line => !line.isEmpty || indentation < line.indent) (first :: following)
    let content := ((first :: following).take filled).map BlockLine.bare
    if content.any fun line => !line.content.isEmpty && line.indent < indentation then
      .error .badIndentation
    else
      let before := leading.flatMap fun line =>
        List.replicate (line.indent - indentation) .space ++ [.newline]
      let text := before ++ joinBlockLines style indentation content
      .ok (chomp style.chomping indentation text ((first :: following).drop filled))

/-- The text of a block scalar with this header. Nothing but fillers follows its signs,
and a comment needs a blank before it. -/
def blockScalarText (header : List Mark) (base : Nat) (atRoot : Bool) (body : Text) : Except Fault Text :=
  match header with
  | [] => .error .badScalar
  | mark :: marks =>
    match BlockStyle.ofText? mark.text with
    | none => .error .badScalar
    | some style =>
      if !marks.all Mark.isFiller then .error .badScalar
      else if (marks.takeWhile (·.kind ≠ .blanks)).any (·.kind = .comment) then .error .spacing
      else blockText style base atRoot body

end BuildPipeline.Yaml
