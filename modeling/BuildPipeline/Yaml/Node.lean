import BuildPipeline.Yaml.Atom

/-! Nodes: scalars and collections with their anchors and tags, and the aliases
that stand for other nodes. -/

namespace BuildPipeline.Yaml

/-- Names need not be unique, but no two anchors stand in one place. -/
structure Anchor where
  name : Text
  offset : Nat
deriving DecidableEq

structure Properties where
  anchor : Option Anchor := none
  tag : Option Text := none
deriving DecidableEq

inductive ScalarStyle
  | plain
  | singleQuoted
  | doubleQuoted
  | block
deriving DecidableEq

structure Scalar where
  style : ScalarStyle
  /-- The text between quotes or in lines, without escapes and folded. -/
  text : Text
  atom : Atom
  /-- A comment belongs to the scalar. -/
  hasComment : Bool := false
deriving DecidableEq

/-- What a collection of members is. -/
inductive MemberShape
  | mapping
  /-- A mapping of which only the keys count. -/
  | set
  /-- A list of mappings with one member each. -/
  | pairs
  /-- A mapping that is written as a list of its members. -/
  | orderedMapping
deriving DecidableEq

inductive Node
  | alias (name : Text) (offset : Nat)
  | scalar (properties : Properties) (content : Scalar)
  | list (properties : Properties) (items : List Node)
  /-- The value of a member may be missing. -/
  | record (properties : Properties) (shape : MemberShape) (members : List (Node × Option Node))

namespace Node

def properties : Node → Properties
  | .alias .. => {}
  | .scalar properties _ => properties
  | .list properties _ => properties
  | .record properties .. => properties

def scalar? : Node → Option Scalar
  | .scalar _ content => some content
  | _ => none

/-- Whether two keys of a mapping are one. -/
def sameKey (left right : Node) : Bool :=
  match left.scalar?, right.scalar? with
  | some first, some second => first.atom.agrees second.atom
  | _, _ => false

mutual

/-- The nodes with an anchor, in the order of their anchors. -/
def anchored : Node → List (Anchor × Node)
  | .alias .. => []
  | .scalar properties content => properties.anchor.toList.map (·, .scalar properties content)
  | .list properties items =>
    properties.anchor.toList.map (·, .list properties items) ++ anchoredItems items
  | .record properties shape members =>
    properties.anchor.toList.map (·, .record properties shape members) ++ anchoredMembers members

def anchoredItems : List Node → List (Anchor × Node)
  | [] => []
  | item :: items => anchored item ++ anchoredItems items

def anchoredMembers : List (Node × Option Node) → List (Anchor × Node)
  | [] => []
  | (key, none) :: members => anchored key ++ anchoredMembers members
  | (key, some value) :: members => anchored key ++ anchored value ++ anchoredMembers members

end

end Node

end BuildPipeline.Yaml
