import BuildPipeline.Document.Scalar
import BuildPipeline.Number.Shortest
import BuildPipeline.Value
import BuildPipeline.Yaml.Fault
import BuildPipeline.Yaml.Lexeme
import BuildPipeline.Yaml.Node
import BuildPipeline.Yaml.Tag

/-! Names of keys. A key that is not text is named by its spelling; a collection is
spelled out between brackets. -/

namespace BuildPipeline.Yaml

/-- How units that end a tag are written in one. -/
def tagEscapes : List (CodeUnit × Text) :=
  [('!', "%21"), (',', "%2C"), ('[', "%5B"), (']', "%5D"), (0x7B, "%7B"), (0x7D, "%7D")]

/-- A tag behind the handle that shortens it. -/
def Dialect.tagText (dialect : Dialect) (tag : Text) : Text :=
  match dialect.handles.find? fun handle => handle.2.isPrefixOf tag with
  | some (handle, start) =>
    handle ++ (tag.drop start.length).flatMap fun unit => (tagEscapes.lookup unit).getD [unit]
  | none => if tag.head? = some (CodeUnit.ofChar '!') then tag else "!<" ++ tag ++ ">"

/-- The anchor and the tag before a node, with a blank behind each. -/
def Dialect.propertiesText (dialect : Dialect) (properties : Properties) : Text :=
  let anchor (anchor : Anchor) : Text := "&" ++ anchor.name ++ " "
  let tag (tag : Text) : Text := dialect.tagText tag ++ " "
  (properties.anchor.map anchor).getD [] ++ (properties.tag.map tag).getD []

/-- Numbers keep the base they are written in and the zeros at their end. -/
def numberText (value : Number) (source : Text) : Text :=
  let digits := source.drop 2
  let fraction := ((source.dropWhile fun (unit : CodeUnit) => unit ≠ '.').drop 1)
  let text := value.text
  if value = .nan then ".nan"
  else if value = .infinity then ".inf"
  else if value = .negativeInfinity then "-.inf"
  else if source.take 2 = "0x" then "0x" ++ digits.map lowerUnit
  else if source.take 2 = "0o" then source
  else if source.getLast? = some (CodeUnit.ofChar '0') && fraction.all isDigit && !fraction.isEmpty then
    let shown := ((text.dropWhile fun (unit : CodeUnit) => unit ≠ '.').drop 1)
    let point : Text := if shown.isEmpty then "." else []
    text ++ point ++ List.replicate (fraction.length - shown.length) 0x30
  else text

/-- A line break more for every run of them, and the indentation of the next line. -/
def spreadLines (indent : Nat) : Text → Text
  | [] => []
  | unit :: rest =>
    if unit = .newline && rest.head? ≠ some .newline then
      .newline :: .newline :: Document.spaces indent ++ spreadLines indent rest
    else unit :: spreadLines indent rest

/-- Text between brackets, plain where it can be. Keys stay on one line. -/
def plainFlowText (isKey : Bool) (indent : Nat) (text : Text) : Text :=
  let isSplit := isKey && text.contains .newline
  if Document.needsEscapes text then Document.doubleQuoted isKey indent text
  else if isSplit || text.any isFlowUnit || Document.needsQuotes text || readsAsOther text then
    Document.quoted isKey indent text
  else spreadLines indent text

/-- Blanks beside a line break would be lost between single quotes. -/
def hasBlankAtBreak : Text → Bool
  | left :: right :: rest =>
    (left = .newline && isSpaceOrTab right) || (isSpaceOrTab left && right = .newline) ||
      hasBlankAtBreak (right :: rest)
  | _ => false

def singleQuotedFlowText (isKey : Bool) (indent : Nat) (text : Text) : Text :=
  if Document.needsEscapes text || (isKey && text.contains .newline) || hasBlankAtBreak text then
    Document.doubleQuoted isKey indent text
  else
    let doubled := text.flatMap fun (unit : CodeUnit) => if unit = '\'' then [unit, unit] else [unit]
    "'" ++ spreadLines indent doubled ++ "'"

def scalarText (isKey : Bool) (indent : Nat) (scalar : Scalar) : Text :=
  match scalar.atom with
  | .null => if scalar.text ∈ nullTexts then scalar.text else "null"
  | .number value => numberText value scalar.text
  | .text text =>
    match scalar.style with
    | .plain => plainFlowText isKey indent text
    | .singleQuoted => singleQuotedFlowText isKey indent text
    | .doubleQuoted => Document.doubleQuoted isKey indent text
    | .block => Document.quoted isKey indent text
  | _ => scalar.text

/-- Lines of this length are broken. -/
def longestFlowLine : Nat := 80

/-- Brackets around entries: on one line if they fit and are lines themselves. -/
def bracketed (opening closing : Text) (indent : Nat) (entries : List Text) : Text :=
  let separate (entry : Text) : Text := entry ++ ","
  let separated := entries.dropLast.map separate ++ entries.getLast?.toList
  let length := separated.flatten.length + 2 * (separated.length + 1)
  if entries.isEmpty then opening ++ closing
  else if longestFlowLine < length || entries.any (·.contains .newline) then
    let lines : Text := separated.flatMap fun entry => .newline :: Document.spaces (indent + 2) ++ entry
    opening ++ lines ++ "\n" ++ Document.spaces indent ++ closing
  else opening ++ " " ++ Text.join " " separated ++ " " ++ closing

/-- A key that needs a question mark. -/
def Node.isLongKey : Node → Bool
  | .scalar _ content => content.style = .block
  | _ => true

def Node.isCollection : Node → Bool
  | .list .. => true
  | .record .. => true
  | _ => false

/-- A member with a value, given the texts of both. -/
def memberText (indent : Nat) (key value : Node) (keyText valueText : Text) : Text :=
  if key.isLongKey then
    let value : Text := if valueText.isEmpty then [] else .space :: valueText
    "? " ++ keyText ++ "\n" ++ Document.spaces indent ++ ":" ++ value
  else if value.isCollection && valueText.contains .newline then
    keyText ++ ":\n" ++ Document.spaces (indent + 2) ++ valueText
  else if valueText.isEmpty then keyText ++ ":"
  else keyText ++ ": " ++ valueText

def bareMemberText (key : Node) (keyText : Text) : Text :=
  if keyText.isEmpty then "?" else if key.isLongKey then "? " ++ keyText else keyText

mutual

/-- A node between brackets. -/
def flowText (dialect : Dialect) (isKey : Bool) (indent : Nat) : Node → Text
  | .alias name _ => "*" ++ name
  | .scalar properties content => dialect.propertiesText properties ++ scalarText isKey indent content
  | .list properties items =>
    dialect.propertiesText properties ++ bracketed "[" "]" indent (itemTexts dialect (indent + 4) items)
  | .record properties shape members =>
    let isBare := shape = .set || (shape = .mapping && members.all (·.2.isNone))
    dialect.propertiesText properties ++
      (if shape = .mapping || shape = .set then
        bracketed "\x7b" "\x7d" indent (memberTexts dialect isBare (indent + 2) members)
      else bracketed "[" "]" indent (memberTexts dialect isBare (indent + 4) members))

def itemTexts (dialect : Dialect) (indent : Nat) : List Node → List Text
  | [] => []
  | item :: items => flowText dialect false indent item :: itemTexts dialect indent items

def memberTexts (dialect : Dialect) (isBare : Bool) (indent : Nat) : List (Node × Option Node) → List Text
  | [] => []
  | (key, none) :: members =>
    bareMemberText key (flowText dialect (!isBare && !key.isLongKey) (indent + 2) key) ::
      memberTexts dialect isBare indent members
  | (key, some value) :: members =>
    let keyText := flowText dialect (!isBare && !key.isLongKey) (indent + 2) key
    let text :=
      if isBare then bareMemberText key keyText
      else memberText indent key value keyText (flowText dialect false (indent + 2) value)
    text :: memberTexts dialect isBare indent members

end

/-- A collection as the name of a key, without its own anchor and tag. -/
def collectionName (dialect : Dialect) : Node → Text
  | .list _ items => flowText dialect false 0 (.list {} items)
  | .record _ shape members => flowText dialect false 0 (.record {} shape members)
  | .scalar _ content => content.text
  | .alias name _ => "*" ++ name

/-- Controls and blanks may not stand in an alias that names a key. -/
def isUnspeakable (unit : CodeUnit) : Bool :=
  unit < 0x1A || isBlank unit

/-- The name of a key that stands for this value. -/
def keyName (dialect : Dialect) (key : Node) : Value → Except Fault Text
  | .null => .ok []
  | .boolean value => .ok (if value then "true" else "false")
  | .number value => .ok value.text
  | .text value => .ok value
  | _ =>
    let name := collectionName dialect key
    match key with
    | .alias .. => if name.any isUnspeakable then .error .badAnchor else .ok name
    | _ => .ok name

end BuildPipeline.Yaml
