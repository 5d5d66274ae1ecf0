import BuildPipeline.Yaml.Outline

/-! What is open while an outline is built, from the document down to the node that
is being read. -/

namespace BuildPipeline.Yaml

/-- Entries of an open collection are listed latest first. -/
inductive Frame
  | document (offset : Nat) (lead : List Mark) (value : Option Outline) (trailing : Option (List Mark))
  | leaf (mark : Mark) (trailing : Option (List Mark))
  | block (header : List Mark) (body : Text)
  | mapping (offset indent : Nat) (entries : List (Entry Outline))
  | list (offset indent : Nat) (entries : List (Entry Outline))
  | flow (opening : Mark) (indent : Nat) (entries : List (Entry Outline)) (closing : List Mark)
  /-- Behind the mark that ends a document. -/
  | ended (trailing : List Mark)

/-- What stands in a stream of documents. -/
inductive Part
  | directive (text : Text)
  | document (offset : Nat) (lead : List Mark) (value : Option Outline) (trailing : List Mark)
  | ended (trailing : List Mark)

namespace Frame

/-- The indentation that a block scalar in this frame is measured from. -/
def baseIndent : Frame → Nat
  | .mapping _ indent _ => indent
  | .list _ indent _ => indent
  | .flow _ indent _ _ => indent
  | _ => 0

def isFlow : Frame → Bool
  | .flow .. => true
  | _ => false

def isDocument : Frame → Bool
  | .document .. => true
  | _ => false

def closedEntries (opening : Mark) (entries : List (Entry Outline)) : List (Entry Outline) :=
  (if opening.kind = .openList then entries.map Entry.asItem else entries).reverse

/-- The finished node of a frame inside another. -/
def close? (frame parent : Frame) : Option Outline :=
  match frame with
  | .leaf mark trailing => some (.leaf mark trailing)
  | .block header body => some (.block header parent.baseIndent body)
  | .mapping offset indent entries => some (.mapping offset indent entries.reverse)
  | .list offset indent entries => some (.list offset indent entries.reverse)
  | .flow opening indent entries closing =>
    some (.flow opening (if parent.isDocument then 0 else indent) (closedEntries opening entries) closing)
  | _ => none

/-- Nothing but fillers, which the surroundings take over unless a comment is
indented as far as the collection. -/
def isLoose (indent : Nat) (entry : Entry Outline) : Bool :=
  entry.between.isNone && entry.value.isNone && !entry.lead.isEmpty && entry.lead.all Mark.isFiller &&
    (indent = 0 || entry.lead.all fun mark => mark.kind ≠ .comment || mark.indent < indent)

/-- Splits off the loose end of a block collection. -/
def splitLoose : Frame → Frame × Option (List Mark)
  | .mapping offset indent (last :: entries) =>
    if isLoose indent last then (.mapping offset indent entries, some last.lead)
    else (.mapping offset indent (last :: entries), none)
  | .list offset indent (last :: entries) =>
    if isLoose indent last then (.list offset indent entries, some last.lead)
    else (.list offset indent (last :: entries), none)
  | other => (other, none)

/-- The marks that stand before what comes next in a frame. -/
def pending : Frame → List Mark
  | .document _ lead _ _ => lead
  | .mapping _ _ (last :: _) => last.between.getD last.lead
  | .list _ _ (last :: _) => last.lead
  | _ => []

def setPending (marks : List Mark) : Frame → Frame
  | .document offset _ value trailing => .document offset marks value trailing
  | .mapping offset indent (last :: entries) =>
    .mapping offset indent <|
      (if last.between.isSome then { last with between := some marks } else { last with lead := marks }) ::
        entries
  | .list offset indent (last :: entries) => .list offset indent ({ last with lead := marks } :: entries)
  | other => other

end Frame

/-- Marks that end what belongs to the node before. -/
def Mark.isBarrier (mark : Mark) : Bool :=
  mark.kind = .documentStart || mark.kind = .keyMark || mark.kind = .valueMark ||
    mark.kind = .itemMark || mark.kind = .newline

/-- The marks up to a barrier and the blanks behind it, and those of the first key of
a mapping that starts on the line. -/
def splitKeyLead (marks : List Mark) : List Mark × List Mark :=
  let own := (marks.reverse.takeWhile (!·.isBarrier)).reverse.dropWhile (·.kind = .blanks)
  (marks.take (marks.length - own.length), own)

end BuildPipeline.Yaml
