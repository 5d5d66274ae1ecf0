import BuildPipeline.Text.Basic

/-! The tree of a configuration document that is to be written. -/

namespace BuildPipeline

inductive Document
  | text (value : Text)
  | number (value : Nat)
  | boolean (value : Bool)
  | list (items : List Document)
  | mapping (members : List (Text × Document))

namespace Document

def ofTexts (values : List Text) : Document :=
  .list (values.map .text)

/-- A mapping with the members of all parts. -/
def ofParts (parts : List (List (Text × Document))) : Document :=
  .mapping parts.flatten

/-- The members of a mapping. -/
def members : Document → List (Text × Document)
  | .mapping members => members
  | _ => []

def member? (document : Document) (key : Text) : Option Document :=
  document.members.lookup key

end Document

end BuildPipeline
