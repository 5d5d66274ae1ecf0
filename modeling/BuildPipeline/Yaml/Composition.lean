import BuildPipeline.Yaml.Property

/-! Outlines as nodes. Every mark must be where it may stand: one rule for each
kind of collection, given how the nodes inside it are composed. -/

namespace BuildPipeline.Yaml

/-- Keys without a question mark may take this many units. -/
def longestKey : Nat := 1024

/-- How a node is composed from its outline and what stands before it. -/
abbrev Composer := Place → Outline → Preamble → Except Fault Composed

/-- A node, or an empty one behind the marks before it. -/
def Composer.orEmpty (composer : Composer) (dialect : Dialect) (place : Place) (outline : Option Outline)
    (before : List Mark) (preamble : Preamble) : Except Fault Composed :=
  match outline with
  | some outline => composer place outline preamble
  | none => emptyNode dialect place before preamble

namespace Outline

def indent : Outline → Nat
  | .leaf mark _ => mark.indent
  | .block _ indent _ => indent
  | .mapping _ indent _ => indent
  | .list _ indent _ => indent
  | .flow _ indent .. => indent

/-- Whether a node takes more than one line, or the line ends behind it. -/
def spansLines : Nat → Outline → Bool
  | _, .leaf mark trailing =>
    mark.kind = .stray || mark.text.contains .newline || hasKind .newline (trailing.getD [])
  | fuel + 1, .flow _ _ entries _ =>
    entries.any fun entry =>
      hasKind .newline entry.lead || hasKind .newline (entry.between.getD []) ||
        (entry.key.map (spansLines fuel)).getD false || (entry.value.map (spansLines fuel)).getD false
  | _, _ => true

def isMapping : Outline → Bool
  | .mapping .. => true
  | _ => false

def isList : Outline → Bool
  | .list .. => true
  | _ => false

def isBlockScalar : Outline → Bool
  | .block .. => true
  | _ => false

end Outline

/-- Whether there is a node that passes the test. -/
def holds (test : Outline → Bool) (outline : Option Outline) : Bool :=
  (outline.map test).getD false

/-- What has been composed of a collection. -/
structure Progress (α : Type) where
  found : List α := []
  stop : Nat
  /-- The end of the marks behind the last entry. -/
  loose : Option Nat := none

/-- Nothing follows the marks behind the last entry. -/
def Progress.finish {α : Type} (progress : Progress α) : Except Fault Nat :=
  match progress.loose with
  | some loose => if loose < progress.stop then .error .misplaced else .ok loose
  | none => .ok progress.stop

abbrev Member := Node × Option Node

section Block

variable (composer : Composer) (nesting : Nat) (dialect : Dialect) (indent : Nat)

/-- A key without a question mark starts where the mapping does and stays on its
line; otherwise the question mark starts there. -/
def checkBlockKey (lead : Preamble) (key : Option Outline) : Except Fault Unit :=
  match lead.indicator with
  | some mark => if mark.indent = indent then .ok () else .error .badIndentation
  | none =>
    if lead.newlineBehind.isSome || holds (Outline.spansLines nesting) key then .error .keyLines else .ok ()

def checkKeyIndent (key : Option Outline) : Except Fault Unit :=
  if holds (fun outline => outline.isList || outline.indent ≠ indent) key then .error .badIndentation
  else .ok ()

/-- The value of a key without a question mark: no mapping on the same line, and the
key not too long. -/
def checkBlockValue (lead between : Preamble) (mark : Mark) (value : Option Outline) : Except Fault Unit :=
  if holds Outline.isMapping value && !between.hasNewline then .error .misplaced
  else if lead.start + longestKey < mark.offset then .error .keyLength
  else .ok ()

/-- The value of a member, and where the member ends. -/
def composeValue (isImplicit : Bool) (lead : Preamble) (key : Composed) (entry : Entry Outline) :
    Except Fault (Option Node × Nat) := do
  let marks := entry.between.getD []
  let between ← readPreamble
    { indicator := .valueMark, isFlow := false, following := .of entry.value none, offset := key.stop, indent
      atLineStart := entry.key.isNone || holds Outline.isBlockScalar entry.key } marks
  match between.indicator with
  | some mark =>
    if isImplicit then checkBlockValue lead between mark entry.value
    let value ← composer.orEmpty dialect {} entry.value marks between
    return (some value.node, value.stop)
  | none => if isImplicit then .error .missingValue else .ok (none, between.stop)

/-- A member of a mapping, or marks that stand alone. -/
def composeMember (progress : Progress Member) (entry : Entry Outline) : Except Fault (Progress Member) := do
  let lead ← readPreamble
    { indicator := .keyMark, isFlow := false, following := .of entry.key entry.between
      offset := progress.stop, indent, atLineStart := true } entry.lead
  let isImplicit := lead.indicator.isNone
  if isImplicit then checkKeyIndent indent entry.key
  if isImplicit && !lead.hasProperty && entry.between.isNone then
    return { progress with loose := some lead.stop }
  else
    checkBlockKey nesting indent lead entry.key
    let key ← composer.orEmpty dialect { isKey := true } entry.key entry.lead lead
    if progress.found.any fun member => member.1.sameKey key.node then .error .repeatedKey
    else
      let (value, stop) ← composeValue composer dialect indent isImplicit lead key entry
      return { progress with found := progress.found ++ [(key.node, value)], stop }

/-- An item of a list, or marks that stand alone. -/
def composeItem (progress : Progress Node) (entry : Entry Outline) : Except Fault (Progress Node) := do
  let lead ← readPreamble
    { indicator := .itemMark, isFlow := false, following := .of entry.value none
      offset := progress.stop, indent, atLineStart := true } entry.lead
  if lead.indicator.isNone then
    if lead.hasProperty || entry.value.isSome then .error .missingMark
    else .ok { progress with loose := some lead.stop }
  else
    let item ← composer.orEmpty dialect {} entry.value entry.lead lead
    return { progress with found := progress.found ++ [item.node], stop := item.stop }

end Block

/-- What has been composed of a collection in brackets: items of a list, or members
of a mapping. -/
structure FlowProgress where
  items : List Node := []
  members : List Member := []
  stop : Nat

/-- A place among the entries of a collection in brackets. -/
structure FlowPlace where
  isMapping : Bool
  indent : Nat
  isFirst : Bool
  isLast : Bool

section Flow

variable (composer : Composer) (nesting : Nat) (dialect : Dialect) (place : FlowPlace)

/-- Commas stand between entries. -/
def checkComma (lead : Preamble) : Except Fault Unit :=
  if place.isFirst then if lead.hasComma then .error .misplaced else .ok ()
  else if lead.hasComma then .ok ()
  else .error .missingMark

def noBlockInside (outline : Option Outline) : Except Fault Unit :=
  if holds Outline.isBlockCollection outline then .error .badIndentation else .ok ()

/-- A lone member of a list keeps its key short and on one line. -/
def checkFlowValue (lead : Preamble) (mark : Mark) (marks : List Mark) : Except Fault Unit :=
  if place.isMapping || lead.indicator.isSome then .ok ()
  else if hasKind .newline (marks.takeWhile (·.kind ≠ .valueMark)) then .error .keyLines
  else if lead.start + longestKey < mark.offset then .error .keyLength
  else .ok ()

def composeFlowValue (lead : Preamble) (key : Composed) (entry : Entry Outline) :
    Except Fault (Option Node × Nat) := do
  let marks := entry.between.getD []
  let between ← readPreamble
    { indicator := .valueMark, isFlow := true, following := .of entry.value none, offset := key.stop
      indent := place.indent, atLineStart := false } marks
  match between.indicator with
  | some mark =>
    checkFlowValue place lead mark marks
    let value ← composer.orEmpty dialect {} entry.value marks between
    noBlockInside entry.value
    return (some value.node, value.stop)
  | none => if entry.value.isSome then .error .missingMark else .ok (none, between.stop)

def composeFlowMember (progress : FlowProgress) (lead : Preamble) (entry : Entry Outline) :
    Except Fault FlowProgress := do
  let key ← composer.orEmpty dialect { isKey := true } entry.key entry.lead lead
  noBlockInside entry.key
  let (value, stop) ← composeFlowValue composer dialect place lead key entry
  if !place.isMapping then
    return { progress with items := progress.items ++ [.record {} .mapping [(key.node, value)]], stop }
  else if progress.members.any fun member => member.1.sameKey key.node then .error .repeatedKey
  else return { progress with members := progress.members ++ [(key.node, value)], stop }

def composeFlowEntry (progress : FlowProgress) (entry : Entry Outline) : Except Fault FlowProgress := do
  let lead ← readPreamble
    { indicator := .keyMark, isFlow := true, following := .of entry.key entry.between
      offset := progress.stop, indent := place.indent, atLineStart := false } entry.lead
  let isImplicit := lead.indicator.isNone
  if isImplicit && !lead.hasProperty && entry.between.isNone && entry.value.isNone then
    if place.isLast && !(place.isFirst && lead.hasComma) then return { progress with stop := lead.stop }
    else .error .misplaced
  else
    if isImplicit && !place.isMapping && holds (Outline.spansLines nesting) entry.key then .error .keyLines
    checkComma place lead
    if !place.isMapping && isImplicit && entry.between.isNone then
      let item ← composer.orEmpty dialect {} entry.value [] lead
      noBlockInside entry.value
      return { progress with items := progress.items ++ [item.node], stop := item.stop }
    else composeFlowMember composer dialect place progress lead entry

/-- The entries with their places. -/
def placedEntries (isMapping : Bool) (indent : Nat) (entries : List (Entry Outline)) :
    List (FlowPlace × Entry Outline) :=
  entries.zipIdx.map fun (entry, index) =>
    (⟨isMapping, indent, index = 0, index + 1 = entries.length⟩, entry)

def composeFlow (opening : Mark) (indent : Nat) (entries : List (Entry Outline)) (closing : List Mark)
    (preamble : Preamble) : Except Fault Composed := do
  let properties ← preamble.properties dialect
  let isMapping := opening.kind = .openMapping
  let first : FlowProgress := { stop := opening.stop }
  let progress ← (placedEntries isMapping indent entries).foldlM
    (fun progress (place, entry) => composeFlowEntry composer nesting dialect place progress entry) first
  match closing with
  | [] => .error .missingMark
  | mark :: trailing =>
    if mark.kind ≠ (if isMapping then .closeMapping else .closeList) then .error .missingMark
    else
      checkTrailing trailing
      let node ← if isMapping then mappingNode properties progress.members else listNode properties progress.items
      return ⟨node, mark.stop + marksLength trailing⟩

end Flow

/-- The properties of a list in block style end with their line. -/
def checkListPreamble (preamble : Preamble) : Except Fault Unit :=
  let offsets := (preamble.anchor.toList ++ preamble.tag.toList).map Mark.offset
  match offsets.max? with
  | none => .ok ()
  | some last =>
    match preamble.newlineBehind with
    | some newline => if newline < last then .error .propertyOrder else .ok ()
    | none => .error .propertyOrder

/-- Composes nodes that are nested no deeper than the fuel. -/
def compose (dialect : Dialect) : Nat → Composer
  | 0, _, _, _ => .error .nesting
  | _, place, .leaf mark trailing, preamble => leafNode dialect place mark (trailing.getD []) preamble
  | _, place, .block header indent body, preamble => blockScalarNode dialect place header indent body preamble
  | fuel + 1, _, .mapping offset indent entries, preamble => do
    let properties ← preamble.properties dialect
    let progress ← entries.foldlM (composeMember (compose dialect fuel) fuel dialect indent) { stop := offset }
    return ⟨← mappingNode properties progress.found, ← progress.finish⟩
  | fuel + 1, _, .list offset indent entries, preamble => do
    let properties ← preamble.properties dialect
    checkListPreamble preamble
    let progress ← entries.foldlM (composeItem (compose dialect fuel) dialect indent) { stop := offset }
    return ⟨← listNode properties progress.found, progress.loose.getD progress.stop⟩
  | fuel + 1, _, .flow opening indent entries closing, preamble =>
    composeFlow (compose dialect fuel) fuel dialect opening indent entries closing preamble

end BuildPipeline.Yaml
