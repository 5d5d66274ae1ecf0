import BuildPipeline.Number.Basic
import BuildPipeline.Table

/-! Data as configuration files hold it, before any meaning is given to it. -/

namespace BuildPipeline

/-- Members of a mapping stand in the order of a `Table`, each key once. -/
inductive Value
  | null
  | boolean (value : Bool)
  | number (value : Number)
  | text (value : Text)
  | list (items : List Value)
  | mapping (members : List (Text × Value))
deriving Inhabited

namespace Value

/-- A mapping of the given entries, listed as a table lists them. -/
def ofEntries (entries : List (Text × Value)) : Value :=
  .mapping (listEntries (assignEntries [] entries))

def members : Value → List (Text × Value)
  | .mapping members => members
  | _ => []

def items : Value → List Value
  | .list items => items
  | _ => []

def member? (value : Value) (key : Text) : Option Value :=
  value.members.lookup key

def text? : Value → Option Text
  | .text value => some value
  | _ => none

def boolean? : Value → Option Bool
  | .boolean value => some value
  | _ => none

def number? : Value → Option Number
  | .number value => some value
  | _ => none

/-- The texts of a list; members of other kinds are passed over. -/
def texts (value : Value) : List Text :=
  value.items.filterMap text?

/-- Present when every item is a text. -/
def texts? : Value → Option (List Text)
  | .list items => items.mapM text?
  | _ => none

end Value

end BuildPipeline
