import BuildPipeline.Table
import BuildPipeline.Text.Base64
import BuildPipeline.Text.Percent
import BuildPipeline.Yaml.Early
import BuildPipeline.Yaml.Fault

/-! Tags: what they are short for, and what they make of a scalar or a collection. -/

namespace BuildPipeline.Yaml

/-- What the names of the standard tags begin with. -/
def standardPrefix : Text := "tag:yaml.org,2002:"

/-- The tag that asks for no resolution by spelling. -/
def plainTag : Text := "!"

/-- How the scalars and tags of a document are to be read. -/
structure Dialect where
  /-- By the rules of YAML 1.1. -/
  isEarly : Bool := false
  /-- What the handles of tags are short for. -/
  handles : List (Text × Text) := [("!!", standardPrefix)]

/-- The part of a shorthand up to its last exclamation mark, and the rest. -/
def splitHandle (source : Text) : Text × Text :=
  let suffix := (source.reverse.takeWhile fun (unit : CodeUnit) => unit ≠ '!').reverse
  (source.take (source.length - suffix.length), suffix)

namespace Dialect

variable (dialect : Dialect)

/-- A shorthand without a known handle is a name of its own if its handle is a
single exclamation mark. -/
def shorthandName (source : Text) : Except Fault Text :=
  let (handle, suffix) := splitHandle source
  if suffix.isEmpty then .error .badTag
  else
    match dialect.handles.lookup handle with
    | some start =>
      match percentDecoded? suffix with
      | some decoded => .ok (start ++ decoded)
      | none => .error .badTag
    | none => if handle = plainTag then .ok source else .error .badTag

/-- The full name of a tag. -/
def tagName (source : Text) : Except Fault Text :=
  if source = plainTag then .ok plainTag
  else if source[1]? = some (CodeUnit.ofChar '<') then
    let name := (source.drop 2).dropLast
    if source.getLast? ≠ some (CodeUnit.ofChar '>') || name ∈ [plainTag, "!!"] then .error .badTag
    else .ok name
  else dialect.shorthandName source

/-- What a plain scalar stands for. -/
def resolve (isKey : Bool) (text : Text) : Atom :=
  if dialect.isEarly then resolveEarly isKey text else resolvePlain text

def taggedInteger? (text : Text) : Option Number :=
  if dialect.isEarly then (earlyInteger? text).or (sixtyInteger? text) else integer? text

def taggedFloat? (text : Text) : Option Number :=
  if dialect.isEarly then (earlyFloat? text).or (sixtyFloat? text) else float? text

/-- A number if it is one, and text otherwise. -/
def numberOrText (number : Option Number) (text : Text) : Atom :=
  (number.map Atom.number).getD (.text text)

/-- A scalar with a standard tag. One that is not spelled as its tag wants is text,
but only YAML 1.1 lets points in time be misspelled or wants a certain spelling of
the merge key. -/
def standardAtom (name text : Text) : Except Fault Atom :=
  if name = "null" then .ok (if text ∈ nullTexts then .null else .text text)
  else if name = "bool" then
    match dialect.resolve false text with
    | .boolean value => .ok (.boolean value)
    | _ => .ok (.text text)
  else if name = "int" then .ok (numberOrText (dialect.taggedInteger? text) text)
  else if name = "float" then .ok (numberOrText (dialect.taggedFloat? text) text)
  else if name = "binary" then .ok (.bytes (base64Bytes text))
  else if name = "merge" then .ok (if dialect.isEarly && text ≠ mergeText then .text text else .merge)
  else if name = "timestamp" then
    if isTimestamp text then .ok .instant
    else if dialect.isEarly then .ok (.text text)
    else .error .badTag
  else .ok (.text text)

/-- What a scalar stands for by its tag, or by its spelling if it is plain. -/
def atom (isPlain isKey : Bool) (tag : Option Text) (text : Text) : Except Fault Atom :=
  match tag with
  | none => .ok (if isPlain then dialect.resolve isKey text else .text text)
  | some name =>
    if standardPrefix.isPrefixOf name then dialect.standardAtom (name.drop standardPrefix.length) text
    else .ok (.text text)

end Dialect

end BuildPipeline.Yaml
