import BuildPipeline.Document.Block
import BuildPipeline.Yaml.Plain

/-! How a text is written as a scalar: plain where it reads back as itself, else
quoted, or as a block when it has several lines. -/

namespace BuildPipeline.Document

/-- Units that open something else when they stand first. -/
def indicators : Text := "\n\t ,[]\x7b\x7d#&*!|>'\"%@\x60"

def startsAsIndicator : Text → Bool
  | [] => false
  | first :: rest =>
    indicators.contains first ||
      ((first = '?' || first = '-') && match rest with
        | [] => true
        | second :: _ => isSpaceOrTab second)

/-- A pair of neighbours that a plain scalar cannot hold. -/
def clashes (left right : CodeUnit) : Bool :=
  ((left = .newline || left = ':') && isSpaceOrTab right) ||
    (isSpaceOrTab left && right = .newline) ||
    (isBlockBlank left && right = '#')

def hasClash : Text → Bool
  | left :: right :: rest => clashes left right || hasClash (right :: rest)
  | _ => false

def endsAsIndicator (text : Text) : Bool :=
  match text.getLast? with
  | some last => isBlockBlank last || last = ':'
  | none => false

def needsQuotes (text : Text) : Bool :=
  startsAsIndicator text || hasClash text || endsAsIndicator text

/-- Controls other than the tab and the newline. -/
def isControl (unit : CodeUnit) : Bool :=
  unit ≤ 0x08 || (0x0B ≤ unit && unit ≤ 0x1F) || (0x7F ≤ unit && unit ≤ 0x9F)

/-- Controls and unpaired surrogates stand only between double quotes. -/
def needsEscapes (text : Text) : Bool :=
  text.any isControl || text.hasUnpaired

/-- A percent sign or a document marker. -/
def startsAsMarker (text : Text) : Bool :=
  [("%" : Text), "---", "..."].any fun marker => marker.isPrefixOf text

/-- Some line starts as a marker, whatever ends the line before it. -/
def hasMarkerLine : Text → Bool
  | [] => false
  | unit :: rest => (isLineEnd unit && startsAsMarker rest) || hasMarkerLine rest

def looksLikeMarker (text : Text) : Bool :=
  startsAsMarker text || hasMarkerLine text

/-- A key of the outermost mapping must not look like a document marker. -/
def keyText (outermost : Bool) (indent : Nat) (key : Text) : Text :=
  if needsEscapes key then doubleQuoted true indent key
  else if key.contains .newline || needsQuotes key || (outermost && looksLikeMarker key) ||
      Yaml.readsAsOther key then
    quoted true indent key
  else key

def valueText (indent : Nat) (value : Text) : Text :=
  if needsEscapes value then doubleQuoted false indent value
  else if value.contains .newline then blockScalar false indent value
  else if needsQuotes value || Yaml.readsAsOther value then quoted false indent value
  else value

end BuildPipeline.Document
