import BuildPipeline.Error
import BuildPipeline.Json.Report
import BuildPipeline.Manifest.Source

/-! What a check of a manifest finds. Only errors make it fail. -/

namespace BuildPipeline

inductive Severity
  | error
  | warning
  | info
deriving DecidableEq

def Severity.name : Severity → Text
  | .error => "error"
  | .warning => "warning"
  | .info => "info"

inductive Issue
  | missing
  | unreadable (cause : Text)
  | notObject
  | malformed (fault : Fault)
  | dangling (fault : LinkFault)
  | cycle (error : PipelineError)
  | unreachable (key : Text)
  /-- So many of the reachable entries repeat a build. -/
  | duplicates (count reachable : Nat)
  | unusedRule (index : Nat)
deriving DecidableEq

namespace Issue

def severity : Issue → Severity
  | .unreachable _ => .warning
  | .unusedRule _ => .warning
  | .duplicates _ _ => .info
  | _ => .error

def code : Issue → Text
  | .missing => "MANIFEST-MISSING"
  | .unreadable _ => "MANIFEST-PARSE"
  | .notObject => "MANIFEST-PARSE"
  | .malformed _ => "SCHEMA-INVALID"
  | .dangling (.unknownRoot _) => "ROOT-UNKNOWN"
  | .dangling (.unknownDependency _ _) => "DEPENDENCY-UNKNOWN"
  | .cycle _ => "DEPENDENCY-CYCLE"
  | .unreachable _ => "SPEC-UNREACHABLE"
  | .duplicates _ _ => "SPEC-DUPLICATE"
  | .unusedRule _ => "RULE-UNUSED"

def message : Issue → Text
  | .missing => missingMessage
  | .unreadable cause => unreadableMessage cause
  | .notObject => manifestFile ++ " is empty or not an object"
  | .malformed fault => fault.message
  | .dangling fault => fault.message
  | .cycle error => error.message
  | .unreachable key =>
    "Spec \"" ++ key ++ "\" is not reachable from any root and will never become a job"
  | .duplicates count reachable =>
    decimal count ++ " of " ++ decimal reachable ++
      " reachable spec entries repeat an already listed build and will be merged"
  | .unusedRule index => "Rule #" ++ decimal (index + 1) ++ " matches no spec"

/-- Where in the manifest, unless it is about the file as a whole. -/
def path? : Issue → Option Text
  | .missing => none
  | .unreadable _ => none
  | .notObject => none
  | .malformed fault => some fault.path
  | .dangling fault => some fault.path
  | .cycle _ => some "specs"
  | .unreachable key => some ("specs." ++ key)
  | .duplicates _ _ => some "specs"
  | .unusedRule index => some ("ci.rules[" ++ decimal index ++ "]")

def report (issue : Issue) : Report :=
  .ofParts [
    [("severity", .text issue.severity.name), ("code", .text issue.code),
     ("message", .text issue.message), ("file", .text manifestFile)],
    Report.optionalMember "path" (issue.path?.map .text)]

def mark : Severity → Text
  | .error => "✗"
  | .warning => "⚠"
  | .info => "ℹ"

def line (issue : Issue) : Text :=
  let place := match issue.path? with
    | some path => " (" ++ path ++ ")"
    | none => ""
  "  " ++ mark issue.severity ++ " [" ++ issue.code ++ "] " ++ issue.message ++ place

end Issue

end BuildPipeline
