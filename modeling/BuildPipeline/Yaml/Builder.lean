import BuildPipeline.Yaml.Fault
import BuildPipeline.Yaml.Frame

/-! The state of building an outline, and how frames are opened and closed. -/

namespace BuildPipeline.Yaml

structure Builder where
  /-- The innermost frame first. -/
  stack : List Frame := []
  /-- The finished parts of the stream, the latest first. -/
  parts : List Part := []
  atLineStart : Bool := true
  indent : Nat := 0
  offset : Nat := 0
  /-- A key has been read on the current line. -/
  onKeyLine : Bool := false

namespace Builder

variable (builder : Builder)

/-- The lexeme as a mark in its place. -/
def mark (lexeme : Lexeme) : Mark :=
  ⟨lexeme.kind, lexeme.text, builder.offset, builder.indent⟩

def addPart (part : Part) : Builder :=
  { builder with parts := part :: builder.parts }

def push (frame : Frame) : Builder :=
  { builder with stack := frame :: builder.stack }

/-- Changes the innermost frame. -/
def setTop (frame : Frame) : Builder :=
  { builder with stack := frame :: builder.stack.drop 1 }

/-- A frame that loses its loose end to its surroundings, as a node among them. -/
def closeLoose (frame parent : Frame) : Option (Outline × List (Entry Outline)) :=
  let (frame, loose) := frame.splitLoose
  (frame.close? parent).map fun outline => (outline, loose.toList.map fun lead => { lead })

/-- Puts a finished frame where its surroundings want it: as the value of the last
entry if that has a key, or else as the key of an entry. -/
def settle (builder : Builder) (frame parent : Frame) (stack : List Frame) : Except Fault Builder :=
  match parent with
  | .document offset lead _ trailing =>
    let (frame, loose) := frame.splitLoose
    match frame.close? parent with
    | some outline =>
      .ok { builder with stack := .document offset lead (some outline) (loose.or trailing) :: stack }
    | none => .error .misplaced
  | .mapping offset indent (last :: entries) =>
    if last.value.isNone && last.between.isSome then
      match closeLoose frame parent with
      | some (outline, loose) =>
        let last := { last with value := some outline }
        .ok { builder with stack := .mapping offset indent (loose ++ last :: entries) :: stack }
      | none => .error .misplaced
    else
      match frame.close? parent with
      | some outline =>
        let isNext := last.value.isSome
        let keyed : Entry Outline := { (if isNext then {} else last) with key := some outline, between := some [] }
        .ok { builder with
          stack := .mapping offset indent (if isNext then keyed :: last :: entries else keyed :: entries) :: stack
          onKeyLine := isNext || !last.isExplicit }
      | none => .error .misplaced
  | .list offset indent (last :: entries) =>
    match closeLoose frame parent with
    | some (outline, loose) =>
      let valued :=
        if last.value.isSome then { value := some outline } :: last :: entries
        else { last with value := some outline } :: entries
      .ok { builder with stack := .list offset indent (loose ++ valued) :: stack }
    | none => .error .misplaced
  | .flow opening indent entries closing =>
    match frame.close? parent with
    | none => .error .misplaced
    | some outline =>
      let keyed (entry : Entry Outline) : Entry Outline :=
        { entry with key := some outline, between := some [] }
      let entries := match entries with
        | [] => [keyed {}]
        | last :: entries =>
          if last.value.isSome then keyed {} :: last :: entries
          else if last.between.isSome then { last with value := some outline } :: entries
          else keyed last :: entries
      .ok { builder with stack := .flow opening indent entries closing :: stack }
  | _ => .error .misplaced

/-- Closes the innermost frame. -/
def pop : Except Fault Builder :=
  match builder.stack with
  | [] => .error .misplaced
  | [.document offset lead value trailing] =>
    .ok { builder.addPart (.document offset lead value (trailing.getD [])) with stack := [] }
  | [.ended trailing] => .ok { builder.addPart (.ended trailing) with stack := [] }
  | frame :: parent :: stack => builder.settle frame parent stack
  | [_] => .error .misplaced

/-- Puts what nothing makes sense of where a node would be. It is a fault only if the
node is looked at. -/
def placeStray : Nat → Builder → Mark → Except Fault Builder
  | 0, _, _ => .error .strayText
  | fuel + 1, builder, mark =>
    match builder.stack with
    | [] => .error .strayText
    | .document offset lead _ trailing :: stack =>
      .ok { builder with stack := .document offset lead (some (.leaf mark none)) trailing :: stack }
    | .block header body :: stack => .ok { builder with stack := .block (header ++ [mark]) body :: stack }
    | .leaf .. :: _ | .ended _ :: _ => do placeStray fuel (← builder.pop) mark
    | parent :: stack => builder.settle (.leaf mark none) parent stack

def addStray (mark : Mark) : Except Fault Builder :=
  placeStray (builder.stack.length + 1) builder mark

def popAll : Nat → Builder → Except Fault Builder
  | 0, builder => .ok builder
  | fuel + 1, builder =>
    if builder.stack.isEmpty then .ok builder else do popAll fuel (← builder.pop)

def finish : Except Fault Builder :=
  popAll builder.stack.length builder

end Builder

end BuildPipeline.Yaml
