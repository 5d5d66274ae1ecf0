import BuildPipeline.Document.Basic
import BuildPipeline.Document.Scalar
import BuildPipeline.Document.Fold
import BuildPipeline.Number.Shortest

/-! Documents as YAML text in block style: two spaces a level, list items below
their key, one newline at the end. -/

namespace BuildPipeline.Document

/-- A line break and the indentation of the next line. -/
def lineBreak (indent : Nat) : Text :=
  .newline :: spaces indent

def joinLines (indent : Nat) (lines : List Text) : Text :=
  Text.join (lineBreak indent) lines

/-- A scalar or an empty collection stays on the line of its key. -/
def staysOnLine : Document → Bool
  | .list items => items.isEmpty
  | .mapping members => members.isEmpty
  | _ => true

/-- Longer keys are written behind a question mark. -/
def longestKey : Nat := 1024

/-- A member, given the text of its value. -/
def memberLine (indent : Nat) (key : Text) (onLine : Bool) (valueIndent : Nat) (value : Text) : Text :=
  if longestKey < key.length then "? " ++ key ++ lineBreak indent ++ ": " ++ value
  else if onLine then key ++ ": " ++ value
  else key ++ ":" ++ lineBreak valueIndent ++ value

mutual

/-- The text of a node whose own lines have the given indentation; `lead` is the
column where it starts when long lines are to be folded. -/
def layout (fold : Bool) (indent lead : Nat) : Document → Text
  | .text value =>
    let text := valueText indent value
    if fold then foldLine indent lead text else text
  | .number value => numeral value
  | .boolean value => Json.boolean value
  | .list items => if items.isEmpty then "[]" else joinLines indent (layoutItems fold indent items)
  | .mapping members =>
    if members.isEmpty then "\x7b\x7d" else joinLines indent (layoutMembers fold indent members)

def layoutItems (fold : Bool) (indent : Nat) : List Document → List Text
  | [] => []
  | item :: items =>
    ("- " ++ layout fold (indent + 2) (indent + 2) item) :: layoutItems fold indent items

def layoutMembers (fold : Bool) (indent : Nat) : List (Text × Document) → List Text
  | [] => []
  | (key, value) :: members =>
    let keyText := keyText (indent == 0) (indent + 2) key
    memberLine indent keyText value.staysOnLine (indent + 2)
        (layout fold (indent + 2) (keyText.length + 2) value) ::
      layoutMembers fold indent members

end

/-- Lines of any length. -/
def render (document : Document) : Text :=
  layout false 0 0 document ++ "\n"

/-- Long one-line scalars are folded. -/
def renderFolded (document : Document) : Text :=
  layout true 0 0 document ++ "\n"

end BuildPipeline.Document
