import BuildPipeline.Yaml.BlockText
import BuildPipeline.Yaml.Node
import BuildPipeline.Yaml.Preamble
import BuildPipeline.Yaml.Quoted
import BuildPipeline.Yaml.Tag

/-! The anchor and the tag of a node, and nodes without anything inside them. -/

namespace BuildPipeline.Yaml

/-- A node and where it ends, with the marks behind it that belong to it. -/
structure Composed where
  node : Node
  stop : Nat

/-- Where a node stands. -/
structure Place where
  isRoot : Bool := false
  isKey : Bool := false

namespace Preamble

variable (preamble : Preamble)

/-- The anchor's name is what follows its mark. -/
def anchorName : Except Fault (Option Anchor) :=
  match preamble.anchor with
  | none => .ok none
  | some mark => if mark.text.length ≤ 1 then .error .badAnchor else .ok (some ⟨mark.text.drop 1, mark.offset⟩)

def tagName (dialect : Dialect) : Except Fault (Option Text) :=
  match preamble.tag with
  | none => .ok none
  | some mark => do
    let name ← dialect.tagName mark.text
    return if name.isEmpty then none else some name

def properties (dialect : Dialect) : Except Fault Properties := do
  return { anchor := ← preamble.anchorName, tag := ← preamble.tagName dialect }

end Preamble

/-- A scalar with this text. -/
def scalarNode (dialect : Dialect) (place : Place) (style : ScalarStyle) (text : Text) (hasComment : Bool)
    (preamble : Preamble) : Except Fault Node := do
  let properties ← preamble.properties dialect
  let atom ← dialect.atom (style = .plain) place.isKey properties.tag text
  return .scalar properties { style, text, atom, hasComment }

/-- Where a scalar without text stands: behind the last mark that is no filler and
the blanks that follow it. -/
def emptyStop (offset : Nat) (before : List Mark) : Nat :=
  let fillers := (before.reverse.takeWhile Mark.isFiller).reverse
  let blanks := if fillers.length = before.length then [] else fillers.takeWhile (·.kind = .blanks)
  offset - marksLength fillers + marksLength blanks

/-- A node of which nothing but its preamble is there. -/
def emptyNode (dialect : Dialect) (place : Place) (before : List Mark) (preamble : Preamble) :
    Except Fault Composed := do
  let node ← scalarNode dialect place .plain [] preamble.hasComment preamble
  return ⟨node, if preamble.hasComment then preamble.stop else emptyStop preamble.stop before⟩

def aliasNode (mark : Mark) (preamble : Preamble) : Except Fault Node :=
  if preamble.hasProperty then .error .misplaced
  else if mark.text.length ≤ 1 then .error .badAnchor
  else .ok (.alias (mark.text.drop 1) mark.offset)

/-- An alias, or a scalar other than a block scalar. -/
def leafNode (dialect : Dialect) (place : Place) (mark : Mark) (trailing : List Mark) (preamble : Preamble) :
    Except Fault Composed := do
  let scalar (style : ScalarStyle) (text : Text) : Except Fault Node :=
    scalarNode dialect place style text (hasKind .comment trailing) preamble
  let node ← match mark.kind with
    | .alias => aliasNode mark preamble
    | .singleQuoted => do scalar .singleQuoted (← singleQuotedText mark.text)
    | .doubleQuoted => do scalar .doubleQuoted (← doubleQuotedText mark.text)
    | .stray => .error .misplaced
    | _ => do scalar .plain (← plainText mark.text)
  checkTrailing trailing
  return ⟨node, mark.stop + marksLength trailing⟩

def blockScalarNode (dialect : Dialect) (place : Place) (header : List Mark) (indent : Nat) (body : Text)
    (preamble : Preamble) : Except Fault Composed := do
  let text ← blockScalarText header indent place.isRoot body
  let node ← scalarNode dialect place .block text (hasKind .comment header) preamble
  return ⟨node, ((header.getLast?.map Mark.stop).getD 0) + body.length⟩

/-- The names of the standard tags for collections. -/
def standardTag (name : Text) : Text :=
  standardPrefix ++ name

/-- Every member of a list as the member of a mapping; a mapping among them may
have no more than one. -/
def pairOf (item : Node) : Except Fault (Node × Option Node) :=
  match item with
  | .record _ .mapping members | .record _ .set members =>
    match members with
    | [] => .ok (.scalar {} { style := .plain, text := "null", atom := .null }, none)
    | [member] => .ok member
    | _ => .error .badTag
  | other => .ok (other, none)

/-- A member that stands for its key alone. -/
def isBareKey (member : Node × Option Node) : Bool :=
  match member.2 with
  | none => true
  | some (.scalar properties content) =>
    content.atom = .null && properties.tag.isNone && !content.hasComment
  | some _ => false

def listNode (properties : Properties) (items : List Node) : Except Fault Node :=
  if properties.tag = some (standardTag "pairs") then do
    return .record properties .pairs (← items.mapM pairOf)
  else if properties.tag = some (standardTag "omap") then do
    return .record properties .orderedMapping (← items.mapM pairOf)
  else .ok (.list properties items)

def mappingNode (properties : Properties) (members : List (Node × Option Node)) : Except Fault Node :=
  if properties.tag = some (standardTag "set") then
    if members.all isBareKey then .ok (.record properties .set members) else .error .badTag
  else .ok (.record properties .mapping members)

end BuildPipeline.Yaml
