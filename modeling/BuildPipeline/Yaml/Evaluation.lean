import BuildPipeline.Yaml.KeyName
import BuildPipeline.Yaml.Stream

/-! The value of a document. An alias has the value of its anchor, and counts: the
uses of a node times the scalars they repeat are limited. -/

namespace BuildPipeline.Yaml

/-- What is known of an anchored node from the start of its evaluation on. -/
structure Shared where
  /-- The offset of the anchor. -/
  anchor : Nat
  uses : Nat := 1
  /-- How much of the document one use repeats; zero as long as it is not known. -/
  weight : Nat := 0
  /-- Not there as long as the node is being evaluated. -/
  value : Option Value := none

structure Evaluation where
  shared : List Shared := []
  /-- A collection has been used inside itself. -/
  isCyclic : Bool := false

namespace Evaluation

variable (evaluation : Evaluation)

def find? (anchor : Nat) : Option Shared :=
  evaluation.shared.find? (·.anchor = anchor)

/-- Replaces what is known of the node. -/
def put (shared : Shared) : Evaluation :=
  { evaluation with shared := shared :: evaluation.shared.filter (·.anchor ≠ shared.anchor) }

def finish (anchor : Nat) (value : Value) : Evaluation :=
  match evaluation.find? anchor with
  | some shared => evaluation.put { shared with value := some value }
  | none => evaluation

end Evaluation

/-- What aliases and keys are read by. -/
structure Scope where
  dialect : Dialect
  anchored : List (Anchor × Node)
  /-- The values of collections inside themselves, by their anchors. -/
  inner : Nat → Value

/-- The latest anchor of that name before an alias. -/
def Scope.target? (scope : Scope) (name : Text) (offset : Nat) : Option (Anchor × Node) :=
  (scope.anchored.filter fun entry => entry.1.name = name && entry.1.offset < offset).getLast?

section Weight

variable (scope : Scope) (evaluation : Evaluation)

mutual

/-- How much of the document a node repeats: the most of anything inside it. -/
def weight : Node → Nat
  | .alias name offset =>
    match scope.target? name offset with
    | some (anchor, _) => ((evaluation.find? anchor.offset).map fun shared => shared.uses * shared.weight).getD 0
    | none => 0
  | .scalar .. => 1
  | .list _ items => itemsWeight items
  | .record _ _ members => membersWeight members

def itemsWeight : List Node → Nat
  | [] => 0
  | item :: items => max (weight item) (itemsWeight items)

def membersWeight : List (Node × Option Node) → Nat
  | [] => 0
  | (key, none) :: members => max (max (weight key) 1) (membersWeight members)
  | (key, some value) :: members => max (max (weight key) (weight value)) (membersWeight members)

end

end Weight

/-- More than this may not be repeated through the aliases of one anchor. -/
def mostRepeated : Nat := 100

/-- Collections other than lists and mappings have no members of their own. -/
def Atom.value : Atom → Value
  | .null => .null
  | .boolean value => .boolean value
  | .number value => .number value
  | .text value => .text value
  | .instant => .mapping []
  | .bytes content =>
    .mapping (content.zipIdx.map fun (byte, index) => (decimal index, .number (.ofNat byte.toNat)))
  | .merge => .number .nan

/-- Whether two values are one key of an ordered mapping. -/
def sameValue : Value → Value → Bool
  | .null, .null => true
  | .boolean left, .boolean right => left = right
  | .number left, .number right => left = right
  | .text left, .text right => left = right
  | _, _ => false

/-- A member with the node and the value of its key. -/
structure Assignment where
  node : Node
  key : Value
  value : Value
  /-- Taken over from another mapping. -/
  isMerged : Bool := false

mutual

/-- The name that a merged member gets from its key. -/
def mergedName : Value → Text
  | .null => "null"
  | .boolean value => if value then "true" else "false"
  | .number value => value.text
  | .text value => value
  | .list items => Text.join "," (mergedNames items)
  | .mapping _ => "[object Object]"

def mergedNames : List Value → List Text
  | [] => []
  | .null :: items => [] :: mergedNames items
  | item :: items => mergedName item :: mergedNames items

end

/-- The anchor by which a node is the same wherever it is used. -/
def Scope.identity? (scope : Scope) : Node → Option Anchor
  | .alias name offset => (scope.target? name offset).map Prod.fst
  | other => other.properties.anchor

/-- Whether two keys of an ordered mapping are one: they are if an alias makes them so. -/
def Scope.isSame (scope : Scope) (left right : Node × Value) : Bool :=
  sameValue left.2 right.2 || ((scope.identity? left.1).isSome && scope.identity? left.1 = scope.identity? right.1)

def Scope.hasRepeatedKey (scope : Scope) : List (Node × Value) → Bool
  | [] => false
  | key :: keys => keys.any (scope.isSame key) || scope.hasRepeatedKey keys

/-- The members of a mapping that is merged into another, by the values of their keys. -/
def Scope.mergedMembers (scope : Scope) (assignments : List Assignment) : List Assignment :=
  let members := assignments.foldl (fun members assignment =>
    let isSame (member : Assignment) : Bool :=
      scope.isSame (member.node, member.key) (assignment.node, assignment.key)
    if !members.any isSame then members ++ [assignment]
    else if assignment.isMerged then members
    else members.map fun member => if isSame member then { member with value := assignment.value } else member) []
  members.map ({ · with isMerged := true })

/-- An element of a set is merged in as a member: its first part is the key and the
second the value. Lists and texts have parts; a part is not known by an anchor. -/
def Assignment.ofElement (element : Assignment) : Except Fault Assignment :=
  let ofParts (parts : List Value) : Assignment :=
    { element with
      node := .list {} []
      key := parts.getD 0 (.text "undefined")
      value := parts.getD 1 .null }
  match element.key with
  | .list items => .ok (ofParts items)
  | .text content => .ok (ofParts (content.symbols.map fun symbol => .text symbol.units))
  | _ => .error .badMerge

def Assignment.ofElements (elements : List Assignment) : Except Fault (List Assignment) :=
  elements.mapM Assignment.ofElement

/-- Members that are merged in do not replace others. -/
def assign (dialect : Dialect) (entries : List (Text × Value)) (assignment : Assignment) :
    Except Fault (List (Text × Value)) := do
  if assignment.isMerged then
    let name := mergedName assignment.key
    return if name ∈ entries.map Prod.fst then entries else entries ++ [(name, assignment.value)]
  else
    let name ← keyName dialect assignment.node assignment.key
    return assignEntry entries name assignment.value

def mappingValue (dialect : Dialect) (assignments : List Assignment) : Except Fault Value := do
  return .ofEntries (← assignments.foldlM (assign dialect) [])

/-- Whether the members of the value are merged in instead of being a member. -/
def Dialect.isMergeKey (dialect : Dialect) (key : Node) : Bool :=
  match key.scalar? with
  | some content =>
    content.atom = .merge || (dialect.isEarly && content.style = .plain && content.atom = .text mergeText)
  | none => false

/-- The node that an alias stands for. -/
def Scope.resolved? (scope : Scope) : Node → Option Node
  | .alias name offset => (scope.target? name offset).map Prod.snd
  | other => some other

/-- Members to merge in, those of a mapping or of a set. -/
def Scope.mergeable (scope : Scope) (node : Node) :
    Except Fault (MemberShape × List (Node × Option Node)) :=
  match scope.resolved? node with
  | some (.record _ .mapping members) => .ok (.mapping, members)
  | some (.record _ .set members) => .ok (.set, members.map fun member => (member.1, none))
  | _ => .error .badMerge

/-- What to merge in: one node's members, or those of every item of a list. -/
def Scope.mergeables (scope : Scope) (value : Option Node) :
    Except Fault (List (MemberShape × List (Node × Option Node))) :=
  match value.bind scope.resolved? with
  | some (.list _ items) => items.mapM scope.mergeable
  | some (.record _ .pairs []) | some (.record _ .orderedMapping []) => .ok []
  | some node => do return [← scope.mergeable node]
  | none => .error .badMerge

abbrev Evaluating := StateT Evaluation (Except Fault)

/-- One more use of an anchored node; its value if that is known. -/
def countUse (scope : Scope) (anchor : Nat) (node : Node) : Evaluating Value := do
  let evaluation ← get
  let shared := (evaluation.find? anchor).getD { anchor }
  let used := { shared with uses := shared.uses + 1 }
  let weighed :=
    if used.weight = 0 then { used with weight := weight scope (evaluation.put used) node } else used
  if mostRepeated < weighed.uses * weighed.weight then throw .aliasCount
  else
    set { (evaluation.put weighed) with isCyclic := evaluation.isCyclic || weighed.value.isNone }
    return weighed.value.getD (scope.inner anchor)

mutual

/-- The value of a node nested no deeper than the fuel. -/
def evaluate (scope : Scope) : Nat → Node → Evaluating Value
  | 0, _ => throw .nesting
  | fuel + 1, node =>
    match node with
    | .alias name offset =>
      match scope.target? name offset with
      | none => throw .unknownAlias
      | some (anchor, target) => do
        if ((← get).find? anchor.offset).isNone then
          let _ ← evaluate scope fuel target
        countUse scope anchor.offset target
    | .scalar properties content => do
      let value := content.atom.value
      properties.anchor.forM fun anchor => modify (·.put { anchor := anchor.offset, value })
      return value
    | .list properties items => do
      properties.anchor.forM fun anchor => modify (·.put { anchor := anchor.offset })
      let value := Value.list (← items.mapM (evaluate scope fuel))
      properties.anchor.forM fun anchor => modify (·.finish anchor.offset value)
      return value
    | .record properties shape members => do
      properties.anchor.forM fun anchor => modify (·.put { anchor := anchor.offset })
      let value ← recordValue scope fuel shape members
      properties.anchor.forM fun anchor => modify (·.finish anchor.offset value)
      return value

def recordValue (scope : Scope) (fuel : Nat) (shape : MemberShape) (members : List (Node × Option Node)) :
    Evaluating Value :=
  match fuel with
  | 0 => throw .nesting
  | fuel + 1 =>
    match shape with
    | .mapping => do
      mappingValue scope.dialect (← members.flatMapM (assignments scope fuel))
    | .set => do
      let _ ← members.flatMapM fun member => assignments scope fuel (member.1, none)
      return .mapping []
    | .pairs => do
      return .list (← members.mapM fun member => do
        mappingValue scope.dialect (← assignments scope fuel member))
    | .orderedMapping => do
      let keys ← members.mapM fun member => do
        let key ← evaluate scope fuel member.1
        let _ ← member.2.mapM (evaluate scope fuel)
        return (member.1, key)
      if scope.hasRepeatedKey keys then throw .repeatedKey else return .mapping []

def assignments (scope : Scope) (fuel : Nat) (member : Node × Option Node) : Evaluating (List Assignment) :=
  match fuel with
  | 0 => throw .nesting
  | fuel + 1 =>
    if scope.dialect.isMergeKey member.1 then do
      (← scope.mergeables member.2).flatMapM fun (shape, members) => do
        let merged := scope.mergedMembers (← members.flatMapM (assignments scope fuel))
        if shape = .set then return ← Assignment.ofElements merged else return merged
    else do
      let key ← evaluate scope fuel member.1
      let value ← member.2.mapM (evaluate scope fuel)
      return [{ node := member.1, key, value := value.getD .null }]

end

/-- Three levels of fuel are taken for every level of nesting. -/
def evaluationFuel : Nat := 3 * deepestNesting

/-- A collection inside itself is unrolled so many times. -/
def mostUnrolled : Nat := 10

/-- Evaluates once more with what is known of collections inside themselves. -/
def unroll (evaluateOnce : (Nat → Value) → Except Fault (Value × Evaluation)) :
    Nat → (Nat → Value) → Except Fault Value
  | 0, inner => (evaluateOnce inner).map Prod.fst
  | rounds + 1, inner => do
    let (value, evaluation) ← evaluateOnce inner
    if evaluation.isCyclic then
      unroll evaluateOnce rounds fun anchor => ((evaluation.find? anchor).bind Shared.value).getD .null
    else return value

def Reading.value (reading : Reading) : Except Fault Value :=
  let anchored := reading.root.anchored
  let evaluateOnce (inner : Nat → Value) : Except Fault (Value × Evaluation) :=
    (evaluate { dialect := reading.dialect, anchored, inner } evaluationFuel reading.root).run {}
  unroll evaluateOnce mostUnrolled fun _ => .mapping []

end BuildPipeline.Yaml
