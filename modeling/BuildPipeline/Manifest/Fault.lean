import BuildPipeline.Number.Shortest

/-! Faults of a manifest's shape: a place in the value, and what is wrong there. -/

namespace BuildPipeline

/-- One step down into a value. -/
inductive Step
  | key (name : Text)
  | item (index : Nat)
deriving DecidableEq

abbrev Location := List Step

/-- A tilde and a slash inside a key are written `~0` and `~1`. -/
def escapePointer (key : Text) : Text :=
  key.flatMap fun (unit : CodeUnit) => if unit = '~' then "~0" else if unit = '/' then "~1" else [unit]

def Step.token : Step → Text
  | .key name => escapePointer name
  | .item index => decimal index

/-- A single slash stands for the whole value. -/
def Location.pointer (location : Location) : Text :=
  if location.isEmpty then "/" else location.flatMap fun step => "/" ++ step.token

inductive Kind
  | object
  | array
  | text
  | boolean
  | integer
deriving DecidableEq

def Kind.name : Kind → Text
  | .object => "object"
  | .array => "array"
  | .text => "string"
  | .boolean => "boolean"
  | .integer => "integer"

inductive Problem
  | wrongKind (expected : Kind)
  | emptyText
  | illegalName
  | emptyList
  | missingMember (key : Text)
  | unknownMember
  | noAlternative
deriving DecidableEq

def Problem.message : Problem → Text
  | .wrongKind expected => "must be " ++ expected.name
  | .emptyText => "must NOT have fewer than 1 characters"
  | .illegalName => "must match pattern \"^[A-Za-z0-9][A-Za-z0-9._+-]*$\""
  | .emptyList => "must NOT have fewer than 1 items"
  | .missingMember key => "must have required property '" ++ key ++ "'"
  | .unknownMember => "must NOT have additional properties"
  | .noAlternative => "must match a schema in anyOf"

structure Fault where
  location : Location
  problem : Problem
deriving DecidableEq

namespace Fault

def path (fault : Fault) : Text :=
  fault.location.pointer

def message (fault : Fault) : Text :=
  fault.path ++ ": " ++ fault.problem.message

end Fault

end BuildPipeline
