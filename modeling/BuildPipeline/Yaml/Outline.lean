import BuildPipeline.Yaml.Lexeme

/-! The outline of a document: which scalars and collections stand where, with
every mark around them and nothing of their meaning. -/

namespace BuildPipeline.Yaml

/-- A lexeme in its place: the units before it, and the indentation of its line as
far as it was read by then. -/
structure Mark where
  kind : Kind
  text : Text
  offset : Nat
  indent : Nat
deriving DecidableEq

def Mark.stop (mark : Mark) : Nat :=
  mark.offset + mark.text.length

/-- The marks before an entry's key, the key, the marks from there to the value, and
the value. An item of a list has no key. -/
structure Entry (α : Type) where
  lead : List Mark := []
  /-- A question mark announces the key. -/
  isExplicit : Bool := false
  key : Option α := none
  between : Option (List Mark) := none
  value : Option α := none

inductive Outline
  /-- An alias, or a scalar other than a block scalar. -/
  | leaf (mark : Mark) (trailing : Option (List Mark))
  | block (header : List Mark) (indent : Nat) (body : Text)
  | mapping (offset indent : Nat) (entries : List (Entry Outline))
  | list (offset indent : Nat) (entries : List (Entry Outline))
  | flow (opening : Mark) (indent : Nat) (entries : List (Entry Outline)) (closing : List Mark)

def hasKind (kind : Kind) (marks : List Mark) : Bool :=
  marks.any (·.kind = kind)

/-- Blanks, comments and line breaks. -/
def Mark.isFiller (mark : Mark) : Bool :=
  mark.kind = .blanks || mark.kind = .comment || mark.kind = .newline

namespace Outline

def isBlockCollection : Outline → Bool
  | .mapping .. => true
  | .list .. => true
  | _ => false

/-- The marks behind a node on its line, where they are its own. -/
def trailing? : Outline → Option (List Mark)
  | .leaf _ trailing => trailing
  | .flow _ _ _ closing => some closing
  | _ => none

/-- Adds to the marks behind a node. -/
def withTrailing (marks : List Mark) : Outline → Outline
  | .leaf mark trailing => .leaf mark (some (trailing.getD [] ++ marks))
  | .flow opening indent entries closing => .flow opening indent entries (closing ++ marks)
  | other => other

/-- Whether a comment ends the marks behind a node. -/
def endsInComment (outline : Outline) : Bool :=
  match outline.trailing? with
  | some marks => marks.getLast?.any (·.kind = .comment)
  | none => false

end Outline

/-- In a list between brackets an item was read like a key; without a mark of an
entry it is a value. -/
def Entry.asItem (entry : Entry Outline) : Entry Outline :=
  match entry.between with
  | none => entry
  | some marks =>
    if entry.value.isSome || hasKind .keyMark entry.lead || hasKind .valueMark marks then entry
    else
      match entry.key with
      | some (.leaf mark trailing) =>
        { lead := entry.lead, isExplicit := entry.isExplicit
          value := some ((Outline.leaf mark trailing).withTrailing marks) }
      | some (.flow opening indent entries closing) =>
        { lead := entry.lead, isExplicit := entry.isExplicit
          value := some ((Outline.flow opening indent entries closing).withTrailing marks) }
      | other => { lead := entry.lead ++ marks, isExplicit := entry.isExplicit, value := other }

end BuildPipeline.Yaml
