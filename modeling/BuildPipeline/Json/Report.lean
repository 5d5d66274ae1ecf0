import BuildPipeline.Json.Quoted
import BuildPipeline.Number.Shortest

/-! Reports as indented JSON: one member a line, two spaces a level. -/

namespace BuildPipeline

inductive Report
  | boolean (value : Bool)
  | number (value : Number)
  | text (value : Text)
  | list (items : List Report)
  | object (members : List (Text × Report))

namespace Report

/-- A member that may be left out. -/
def optionalMember (key : Text) (value : Option Report) : List (Text × Report) :=
  value.toList.map fun value => (key, value)

/-- An object with the members of all parts. -/
def ofParts (parts : List (List (Text × Report))) : Report :=
  .object parts.flatten

def lineStart (level : Nat) : Text :=
  0x0A :: List.replicate (2 * level) 0x20

/-- Brackets around lines of one deeper level; nothing between them when empty. -/
def bracketed (opening closing : Text) (level : Nat) (lines : List Text) : Text :=
  if lines.isEmpty then opening ++ closing
  else
    let body := Text.join "," (lines.map fun line => lineStart (level + 1) ++ line)
    opening ++ body ++ lineStart level ++ closing

mutual

def layout (level : Nat) : Report → Text
  | .boolean value => Json.boolean value
  | .number value => value.text
  | .text value => Json.quote value
  | .list items => bracketed "[" "]" level (layoutItems (level + 1) items)
  | .object members => bracketed "\x7b" "\x7d" level (layoutMembers (level + 1) members)

def layoutItems (level : Nat) : List Report → List Text
  | [] => []
  | item :: items => layout level item :: layoutItems level items

def layoutMembers (level : Nat) : List (Text × Report) → List Text
  | [] => []
  | (key, value) :: members =>
    (Json.quote key ++ ": " ++ layout level value) :: layoutMembers level members

end

def render (report : Report) : Text :=
  layout 0 report

end Report

end BuildPipeline
