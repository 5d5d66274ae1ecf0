import BuildPipeline.Yaml.Builder

/-! Building outlines mark by mark. Indentation decides which frame a mark belongs
to: a frame that it does not belong to is closed, and the next one looks at it. -/

namespace BuildPipeline.Yaml

def Kind.isLeaf (kind : Kind) : Bool :=
  kind = .alias || kind = .scalar || kind = .singleQuoted || kind = .doubleQuoted

def Kind.isProperty (kind : Kind) : Bool :=
  kind = .anchor || kind = .tag

/-- An outline that is written in one go or in brackets. -/
def Outline.isFlow : Outline → Bool
  | .leaf mark _ => mark.kind ≠ .stray
  | .flow .. => true
  | _ => false

/-- Where the marks between a key and its value are divided when another entry
begins: at the second of the empty lines, unless a deeper comment comes later. -/
def lateNewlines (indent : Nat) (marks : List Mark) : List Nat :=
  marks.zipIdx.foldl (fun found (mark, place) =>
    if mark.kind = .newline then found ++ [place]
    else if mark.kind = .blanks then found
    else if mark.kind = .comment && mark.indent ≤ indent then found
    else []) []

def splitLate (indent : Nat) (marks : List Mark) : List Mark × List Mark :=
  match (lateNewlines indent marks)[1]? with
  | some place => marks.splitAt place
  | none => (marks, [])

namespace Builder

/-- The frame below the innermost one. -/
def parent? (builder : Builder) : Option Frame :=
  builder.stack[1]?

/-- Takes from a frame the marks that belong to the first key of a new mapping. -/
def claimLead (frame : Frame) : Frame × List Mark :=
  let (kept, own) := splitKeyLead frame.pending
  (frame.setPending kept, own)

/-- A node that a mark begins, with its surroundings as they are from then on. -/
def open? (builder : Builder) (mark : Mark) (surroundings : Frame) : Option (Builder × Frame × Frame) :=
  let (claimed, own) := claimLead surroundings
  if mark.kind.isLeaf then some (builder, surroundings, .leaf mark none)
  else
    match mark.kind with
    | .blockHeader => some (builder, surroundings, .block [mark] [])
    | .openMapping => some (builder, surroundings, .flow mark mark.indent [] [])
    | .openList => some (builder, surroundings, .flow mark mark.indent [] [])
    | .itemMark => some (builder, surroundings, .list mark.offset mark.indent [{ lead := [mark] }])
    | .keyMark =>
      some ({ builder with onKeyLine := true }, claimed,
        .mapping mark.offset mark.indent [{ lead := own ++ [mark], isExplicit := true }])
    | .valueMark =>
      some ({ builder with onKeyLine := true }, claimed,
        .mapping mark.offset mark.indent [{ lead := own, between := some [mark] }])
    | _ => none

/-- Opens a node inside the innermost frame. -/
def pushInside? (builder : Builder) (mark : Mark) (top : Frame) : Option Builder :=
  (builder.open? mark top).map fun (builder, top, opened) => (builder.setTop top).push opened

/-- Turns the innermost frame into a mapping of which it is the first key; the marks
before it move from the surroundings into the mapping. -/
def makeKey (builder : Builder) (key : Outline) (offset indent : Nat) (between : List Mark) : Builder :=
  let entry (lead : List Mark) : Frame :=
    .mapping offset indent [{ lead, key := some key, between := some between }]
  let stack := match builder.stack with
    | _ :: surroundings :: stack =>
      let (claimed, own) := claimLead surroundings
      entry own :: claimed :: stack
    | _ => [entry []]
  { builder with stack, onKeyLine := true }

/-- What a mark does to a frame: it is taken in, or the frame is closed and the
surroundings see the mark. -/
inductive Reaction
  | taken (builder : Builder)
  | passedOn
  | refused (fault : Fault)

def stepStream (builder : Builder) (mark : Mark) : Reaction :=
  match mark.kind with
  | .directive => .taken (builder.addPart (.directive mark.text))
  | .byteOrderMark | .blanks | .comment | .newline => .taken builder
  | .content => .taken (builder.push (.document mark.offset [] none none))
  | .documentStart => .taken (builder.push (.document mark.offset [mark] none none))
  | _ => .refused .strayText

/-- Marks behind a finished node on its line. Closing the frame at the end of the
line is left to `stepLine`. -/
def isPassedOnAtEnd (kind : Kind) : Bool :=
  kind = .comma || kind = .documentStart || kind = .documentEnd || kind = .closeList ||
    kind = .closeMapping || kind = .valueMark

/-- A mark behind a finished node; the line break closes its frame. -/
def stepLine (builder : Builder) (mark : Mark) (extended : Frame) : Reaction :=
  if isPassedOnAtEnd mark.kind then .passedOn
  else if mark.kind = .newline then
    match ({ builder with onKeyLine := false }.setTop extended).pop with
    | .ok builder => .taken builder
    | .error fault => .refused fault
  else .taken (builder.setTop extended)

def stepDocument (builder : Builder) (mark : Mark) (offset : Nat) (lead : List Mark)
    (value : Option Outline) (trailing : Option (List Mark)) : Reaction :=
  if value.isSome then
    builder.stepLine mark (.document offset lead value (some (trailing.getD [] ++ [mark])))
  else if mark.kind = .documentStart && !lead.all Mark.isFiller then .passedOn
  else if mark.kind = .documentStart || mark.kind.isProperty || mark.isFiller then
    .taken (builder.setTop (.document offset (lead ++ [mark]) none trailing))
  else
    match builder.pushInside? mark (.document offset lead none trailing) with
    | some builder => .taken builder
    | none => .refused .misplaced

def stepLeaf (builder : Builder) (mark leaf : Mark) (trailing : Option (List Mark)) : Reaction :=
  let marks := trailing.getD [] ++ [mark]
  if mark.kind = .valueMark then .taken (builder.makeKey (.leaf leaf none) leaf.offset leaf.indent marks)
  else builder.stepLine mark (.leaf leaf (some marks))

/-- The lines of a block scalar close its frame. -/
def stepBlock (builder : Builder) (mark : Mark) (header : List Mark) : Reaction :=
  if mark.isFiller then .taken (builder.setTop (.block (header ++ [mark]) []))
  else if mark.kind = .scalar then
    match ({ builder with atLineStart := true, indent := 0 }.setTop (.block header mark.text)).pop with
    | .ok builder => .taken builder
    | .error fault => .refused fault
  else .passedOn

/-- A comment on a line of its own, deeper than the collection. -/
def isDeepComment (mark : Mark) (indent : Nat) (lead : List Mark) : Bool :=
  mark.kind = .comment && indent < mark.indent &&
    lead.all fun before => before.kind = .newline || before.kind = .blanks

/-- Moves marks that follow the value of the entry before to that value. -/
def giveBack? (marks : List Mark) : List (Entry Outline) → Option (List (Entry Outline))
  | [] => none
  | before :: entries => do
    let value ← before.value
    let _ ← value.trailing?
    return { before with value := some (value.withTrailing marks) } :: entries

/-- A line break behind a value. -/
def addNewline (mark : Mark) (last : Entry Outline) (entries : List (Entry Outline)) :
    List (Entry Outline) :=
  match last.value with
  | some value =>
    if value.endsInComment then { last with value := some (value.withTrailing [mark]) } :: entries
    else { lead := [mark] } :: last :: entries
  | none =>
    match last.between with
    | some marks => { last with between := some (marks ++ [mark]) } :: entries
    | none => { last with lead := last.lead ++ [mark] } :: entries

/-- Blanks or a comment behind what has been read of an entry. -/
def addFiller (mark : Mark) (indent : Nat) (last : Entry Outline) (entries : List (Entry Outline)) :
    List (Entry Outline) :=
  if last.value.isSome then { lead := [mark] } :: last :: entries
  else
    match last.between with
    | some marks => { last with between := some (marks ++ [mark]) } :: entries
    | none =>
      let added := { last with lead := last.lead ++ [mark] } :: entries
      if isDeepComment mark indent last.lead then
        (giveBack? (last.lead ++ [mark]) entries).getD added
      else added

/-- A block mapping together with its last entry, while a mark is added to it. -/
structure OpenMapping where
  offset : Nat
  indent : Nat
  last : Entry Outline
  entries : List (Entry Outline)
  /-- The mark stands where the mapping's entries begin, on a new line. -/
  atIndent : Bool
  /-- The mark begins another entry. -/
  atNext : Bool
  /-- Marks that move on to the next entry. -/
  moved : List Mark

namespace OpenMapping

def of (builder : Builder) (mark : Mark) (offset indent : Nat) (last : Entry Outline)
    (entries : List (Entry Outline)) : OpenMapping :=
  let atIndent := !builder.onKeyLine && builder.indent = indent
  let atNext := atIndent && (last.between.isSome || last.isExplicit) && mark.kind ≠ .itemMark
  match last.between with
  | some marks =>
    if atNext && last.value.isNone then
      let (kept, moved) := splitLate indent marks
      ⟨offset, indent, { last with between := some kept }, entries, atIndent, atNext, moved⟩
    else ⟨offset, indent, last, entries, atIndent, atNext, []⟩
  | none => ⟨offset, indent, last, entries, atIndent, atNext, []⟩

variable (mapping : OpenMapping)

def frame : Frame :=
  .mapping mapping.offset mapping.indent (mapping.last :: mapping.entries)

def withLast (last : Entry Outline) : Frame :=
  .mapping mapping.offset mapping.indent (last :: mapping.entries)

def withNext (next : Entry Outline) : Frame :=
  .mapping mapping.offset mapping.indent (next :: mapping.last :: mapping.entries)

/-- Whether a mark goes to an entry behind the last one. -/
def beginsEntry : Bool :=
  mapping.atNext || mapping.last.value.isSome

def addProperty (builder : Builder) (mark : Mark) : Builder :=
  if mapping.beginsEntry then
    { builder.setTop (mapping.withNext { lead := mapping.moved ++ [mark] }) with onKeyLine := true }
  else
    match mapping.last.between with
    | some marks => builder.setTop (mapping.withLast { mapping.last with between := some (marks ++ [mark]) })
    | none => builder.setTop (mapping.withLast { mapping.last with lead := mapping.last.lead ++ [mark] })

def addKeyMark (builder : Builder) (mark : Mark) : Builder :=
  let changed :=
    if mapping.last.between.isNone && !mapping.last.isExplicit then
      builder.setTop (mapping.withLast
        { mapping.last with lead := mapping.last.lead ++ [mark], isExplicit := true })
    else if mapping.beginsEntry then
      builder.setTop (mapping.withNext { lead := mapping.moved ++ [mark], isExplicit := true })
    else
      (builder.setTop mapping.frame).push
        (.mapping mark.offset mark.indent [{ lead := [mark], isExplicit := true }])
  { changed with onKeyLine := true }

/-- A new mapping inside the last entry that has a value but no key. -/
def nestKeyless (builder : Builder) (mark : Mark) (lead : List Mark) : Builder :=
  (builder.setTop mapping.frame).push
    (.mapping mark.offset mark.indent [{ lead, between := some [mark] }])

/-- A value mark behind an entry that a question mark announces. -/
def addValueMarkExplicit (builder : Builder) (mark : Mark) : Builder :=
  match mapping.last.between with
  | none =>
    if hasKind .newline mapping.last.lead then
      builder.setTop (mapping.withLast { mapping.last with key := none, between := some [mark] })
    else
      let (kept, own) := splitKeyLead mapping.last.lead
      (builder.setTop (mapping.withLast { mapping.last with lead := kept })).push
        (.mapping mark.offset mark.indent [{ lead := own, between := some [mark] }])
  | some marks =>
    if mapping.last.value.isSome then
      builder.setTop (mapping.withNext { between := some [mark] })
    else if hasKind .valueMark marks then mapping.nestKeyless builder mark mapping.moved
    else if (mapping.last.key.map Outline.isFlow).getD false && !hasKind .newline marks then
      let (kept, own) := splitKeyLead mapping.last.lead
      (builder.setTop (mapping.withLast
          { mapping.last with lead := kept, key := none, between := none })).push
        (.mapping mark.offset mark.indent
          [{ lead := own, key := mapping.last.key, between := some (marks ++ [mark]) }])
    else
      builder.setTop (mapping.withLast
        { mapping.last with between := some (marks ++ mapping.moved ++ [mark]) })

def addValueMarkPlain (builder : Builder) (mark : Mark) : Builder :=
  match mapping.last.between with
  | none => builder.setTop (mapping.withLast { mapping.last with key := none, between := some [mark] })
  | some marks =>
    if mapping.beginsEntry then
      builder.setTop (mapping.withNext { lead := mapping.moved, between := some [mark] })
    else if hasKind .valueMark marks then mapping.nestKeyless builder mark []
    else builder.setTop (mapping.withLast { mapping.last with between := some (marks ++ [mark]) })

def addValueMark (builder : Builder) (mark : Mark) : Builder :=
  let changed :=
    if mapping.last.isExplicit then mapping.addValueMarkExplicit builder mark
    else mapping.addValueMarkPlain builder mark
  { changed with onKeyLine := true }

def addLeaf (builder : Builder) (mark : Mark) : Builder :=
  if mapping.beginsEntry then
    { builder.setTop (mapping.withNext
        { lead := mapping.moved, key := some (.leaf mark none), between := some [] }) with
      onKeyLine := true }
  else if mapping.last.between.isSome then (builder.setTop mapping.frame).push (.leaf mark none)
  else
    { builder.setTop (mapping.withLast
        { mapping.last with key := some (.leaf mark none), between := some [] }) with
      onKeyLine := true }

/-- A collection or a block scalar. A list does not begin on the line of a key. -/
def addOther (builder : Builder) (mark : Mark) : Reaction :=
  if mark.kind = .itemMark then
    let onLine := match mapping.last.between with
      | some marks => !mapping.last.isExplicit && !hasKind .newline marks
      | none => false
    if onLine then
      match (builder.setTop mapping.frame).addStray { mark with kind := .stray } with
      | .ok builder => .taken builder
      | .error fault => .refused fault
    else
      match builder.pushInside? mark mapping.frame with
      | some builder => .taken builder
      | none => .passedOn
  else
    let frame := if mapping.atIndent then mapping.withNext { lead := mapping.moved } else mapping.frame
    match builder.open? mark mapping.frame with
    | some (builder, _, opened) => .taken ((builder.setTop frame).push opened)
    | none => .passedOn

def add (builder : Builder) (mark : Mark) : Reaction :=
  if mark.kind.isProperty then .taken (mapping.addProperty builder mark)
  else if mark.kind = .keyMark then .taken (mapping.addKeyMark builder mark)
  else if mark.kind = .valueMark then .taken (mapping.addValueMark builder mark)
  else if mark.kind.isLeaf then .taken (mapping.addLeaf builder mark)
  else mapping.addOther builder mark

end OpenMapping

def stepMapping (builder : Builder) (mark : Mark) (offset indent : Nat) (last : Entry Outline)
    (entries : List (Entry Outline)) : Reaction :=
  if mark.kind = .newline then
    .taken ({ builder with onKeyLine := false }.setTop (.mapping offset indent (addNewline mark last entries)))
  else if mark.isFiller then
    .taken (builder.setTop (.mapping offset indent (addFiller mark indent last entries)))
  else if indent ≤ builder.indent then (OpenMapping.of builder mark offset indent last entries).add builder mark
  else .passedOn

/-- A property of the next item, or the mark of an item; nothing else is added to the
list itself. -/
def addToList? (builder : Builder) (mark : Mark) (offset indent : Nat) (last : Entry Outline)
    (entries : List (Entry Outline)) : Option Builder :=
  let set (entries : List (Entry Outline)) : Builder := builder.setTop (.list offset indent entries)
  let extended := { last with lead := last.lead ++ [mark] } :: entries
  if mark.kind.isProperty then
    if last.value.isSome || builder.indent ≤ indent then none else some (set extended)
  else if mark.kind = .itemMark && builder.indent = indent then
    if last.value.isSome || hasKind .itemMark last.lead then some (set ({ lead := [mark] } :: last :: entries))
    else some (set extended)
  else none

def stepList (builder : Builder) (mark : Mark) (offset indent : Nat) (last : Entry Outline)
    (entries : List (Entry Outline)) : Reaction :=
  if mark.kind = .newline then
    .taken (builder.setTop (.list offset indent (addNewline mark { last with between := none } entries)))
  else if mark.isFiller then
    .taken (builder.setTop (.list offset indent (addFiller mark indent last entries)))
  else
    match builder.addToList? mark offset indent last entries with
    | some builder => .taken builder
    | none =>
      if indent < builder.indent then
        match builder.pushInside? mark (.list offset indent (last :: entries)) with
        | some builder => .taken builder
        | none => .passedOn
      else .passedOn

/-- Closes what is in brackets, outwards to the first block. -/
def breakOff : Nat → Builder → Except Fault Builder
  | 0, builder => .ok builder
  | fuel + 1, builder => do
    let builder ← builder.pop
    match builder.stack with
    | .flow .. :: _ => breakOff fuel builder
    | _ => return builder

/-- A mark inside brackets that are still open, without regard to nodes. -/
def addToFlow? (mark : Mark) (entries : List (Entry Outline)) : Option (List (Entry Outline)) :=
  let fresh (entry : Entry Outline) : Option (List (Entry Outline)) := some (entry :: entries)
  let isFresh := match entries with
    | [] => true
    | last :: _ => last.value.isSome
  match mark.kind, entries with
  | .comma, [] | .keyMark, [] => fresh { lead := [mark] }
  | .comma, last :: rest | .keyMark, last :: rest =>
    if last.between.isSome then fresh { lead := [mark] }
    else some ({ last with lead := last.lead ++ [mark] } :: rest)
  | .valueMark, entries =>
    if isFresh then fresh { between := some [mark] }
    else match entries with
      | [] => none
      | last :: rest =>
        match last.between with
        | some marks => some ({ last with between := some (marks ++ [mark]) } :: rest)
        | none => some ({ last with key := none, between := some [mark] } :: rest)
  | _, entries =>
    if mark.isFiller || mark.kind.isProperty then
      if isFresh then fresh { lead := [mark] }
      else match entries with
        | [] => none
        | last :: rest =>
          match last.between with
          | some marks => some ({ last with between := some (marks ++ [mark]) } :: rest)
          | none => some ({ last with lead := last.lead ++ [mark] } :: rest)
    else none

/-- A leaf inside brackets: a key first, and behind marks of an entry its value. -/
def addFlowLeaf (builder : Builder) (mark opening : Mark) (indent : Nat) (entries : List (Entry Outline)) :
    Builder :=
  let set (entries : List (Entry Outline)) : Builder := builder.setTop (.flow opening indent entries [])
  let keyed (entry : Entry Outline) : Entry Outline :=
    { entry with key := some (.leaf mark none), between := some [] }
  match entries with
  | [] => set [keyed {}]
  | last :: rest =>
    if last.value.isSome then set (keyed {} :: last :: rest)
    else if last.between.isSome then builder.push (.leaf mark none)
    else set (keyed last :: rest)

def stepOpenFlow (builder : Builder) (mark opening : Mark) (indent : Nat)
    (entries : List (Entry Outline)) : Reaction :=
  match addToFlow? mark entries with
  | some entries => .taken (builder.setTop (.flow opening indent entries []))
  | none =>
    if mark.kind.isLeaf then .taken (builder.addFlowLeaf mark opening indent entries)
    else if mark.kind = .closeMapping || mark.kind = .closeList then
      .taken (builder.setTop (.flow opening indent entries [mark]))
    else
      match builder.pushInside? mark (.flow opening indent entries []) with
      | some builder => .taken builder
      | none => .passedOn

/-- Brackets that are closed may turn out to be a key. -/
def stepClosedFlow (builder : Builder) (mark opening : Mark) (indent : Nat)
    (entries : List (Entry Outline)) (closing : List Mark) : Reaction :=
  let surroundings := builder.parent?
  let ends : Bool := match surroundings with
    | some (.mapping _ outer (last :: _)) =>
      (mark.kind = .valueMark && outer = indent) || (mark.kind = .newline && last.between.isNone)
    | _ => false
  if ends then .passedOn
  else if mark.kind = .valueMark && !(surroundings.map Frame.isFlow).getD false then
    let key : Outline := .flow opening indent (Frame.closedEntries opening entries) (closing.take 1)
    .taken (builder.makeKey key opening.offset indent (closing.drop 1 ++ [mark]))
  else builder.stepLine mark (.flow opening indent entries (closing ++ [mark]))

def stepFlow (builder : Builder) (mark opening : Mark) (indent : Nat) (entries : List (Entry Outline))
    (closing : List Mark) : Reaction :=
  if mark.kind = .breakOff then
    match breakOff builder.stack.length builder with
    | .ok builder => .taken builder
    | .error fault => .refused fault
  else if closing.isEmpty then builder.stepOpenFlow mark opening indent entries
  else builder.stepClosedFlow mark opening indent entries closing

def stepEnded (builder : Builder) (mark : Mark) (trailing : List Mark) : Reaction :=
  if mark.kind = .content then .taken builder
  else
    let extended := builder.setTop (.ended (trailing ++ [mark]))
    if mark.kind = .newline then
      match extended.pop with
      | .ok builder => .taken builder
      | .error fault => .refused fault
    else .taken extended

/-- What the innermost frame does with a mark. -/
def react (builder : Builder) (mark : Mark) : Reaction :=
  match builder.stack with
  | [] => builder.stepStream mark
  | .document offset lead value trailing :: _ => builder.stepDocument mark offset lead value trailing
  | .leaf leaf trailing :: _ => builder.stepLeaf mark leaf trailing
  | .block header _ :: _ => builder.stepBlock mark header
  | .mapping offset indent (last :: entries) :: _ => builder.stepMapping mark offset indent last entries
  | .list offset indent (last :: entries) :: _ => builder.stepList mark offset indent last entries
  | .flow opening indent entries closing :: _ => builder.stepFlow mark opening indent entries closing
  | .ended trailing :: _ => builder.stepEnded mark trailing
  | _ => .refused .misplaced

/-- Closes frames until one takes the mark. -/
def offer : Nat → Builder → Mark → Except Fault Builder
  | 0, _, _ => .error .misplaced
  | fuel + 1, builder, mark =>
    match builder.react mark with
    | .taken builder => .ok builder
    | .refused fault => .error fault
    | .passedOn => do offer fuel (← builder.pop) mark

/-- The mark that ends a document closes everything. -/
def addMark (builder : Builder) (mark : Mark) : Except Fault Builder :=
  let isEnded := match builder.stack with
    | .ended _ :: _ => true
    | _ => false
  if mark.kind = .documentEnd && !isEnded then do
    return (← builder.finish).push (.ended [])
  else offer (builder.stack.length + 1) builder mark

/-- Keeps count of the place in the text and of the indentation. -/
def advance (builder : Builder) (lexeme : Lexeme) : Builder :=
  let length := lexeme.text.length
  let moved := { builder with offset := builder.offset + length }
  match lexeme.kind with
  | .content | .breakOff => builder
  | .scalar => moved
  | .newline => { moved with atLineStart := true, indent := 0 }
  | .blanks =>
    if builder.atLineStart && lexeme.text.head? = some .space then
      { moved with indent := builder.indent + length }
    else moved
  | .keyMark | .valueMark | .itemMark =>
    if builder.atLineStart then { moved with indent := builder.indent + length } else moved
  | _ => { moved with atLineStart := false }

/-- A scalar is no indentation for what follows, unless it is a block scalar. -/
def add (builder : Builder) (lexeme : Lexeme) : Except Fault Builder := do
  let mark := builder.mark lexeme
  if lexeme.kind = .stray then
    return { (← builder.addStray mark) with offset := mark.stop }
  else
    let builder := if lexeme.kind = .scalar then { builder with atLineStart := false } else builder
    return (← builder.addMark (builder.mark lexeme)).advance lexeme

end Builder

/-- The parts of a stream, in order. -/
def partsOf (lexemes : List Lexeme) : Except Fault (List Part) := do
  let builder ← lexemes.foldlM Builder.add {}
  return (← builder.finish).parts.reverse

end BuildPipeline.Yaml
