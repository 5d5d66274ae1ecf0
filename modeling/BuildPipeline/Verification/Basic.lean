import BuildPipeline.Graph.Build
import BuildPipeline.Rule.Basic
import BuildPipeline.Verification.Issue

/-! The check of a manifest: its shape, its references, its cycles, and then what
in it is of no use. -/

namespace BuildPipeline

structure Verification where
  issues : List Issue
  /-- Distinct builds, once there is a graph. -/
  specCount : Option Nat := none

def Verification.passed (verification : Verification) : Bool :=
  verification.issues.all (·.severity ≠ .error)

namespace LinkedStack

/-- The keys that some root reaches, from the last root on. -/
def reachableKeys (stack : LinkedStack) : List Text :=
  Reach.descend stack.downward (fun _ => true) [] stack.roots.reverse

def unreachableIssues (stack : LinkedStack) : List Issue :=
  ((sortTexts stack.specs.keys).filter (· ∉ stack.reachableKeys)).map .unreachable

/-- Entries that the graph has merged with others. -/
def duplicateIssues (stack : LinkedStack) (graph : PipelineGraph) : List Issue :=
  let reachable := stack.reachableKeys.length
  if graph.size < reachable then [.duplicates (reachable - graph.size) reachable] else []

end LinkedStack

/-- Declared rules that match no node, in the order of declaration. -/
def PipelineGraph.unusedRules (graph : PipelineGraph) (config : CiConfig) : List Issue :=
  (config.rules.getD []).zipIdx.filterMap fun (rule, index) =>
    if graph.nodes.any (·.satisfies (rule.predicate.getD {})) then none else some (.unusedRule index)

namespace StackManifest

def verify (manifest : StackManifest) : Verification :=
  match manifest.link with
  | .error faults => ⟨faults.map .dangling, none⟩
  | .ok stack =>
    match stack.graph with
    | .error error => ⟨[.cycle error], none⟩
    | .ok graph =>
      ⟨stack.unreachableIssues ++ stack.duplicateIssues graph ++ graph.unusedRules manifest.config,
        some graph.size⟩

end StackManifest

/-- A list is checked for its shape like a mapping; other values are not. -/
def Value.verify (value : Value) : Verification :=
  match value with
  | .mapping _ => checked
  | .list _ => checked
  | _ => ⟨[.notObject], none⟩
where
  checked : Verification :=
    match value.checkManifest with
    | .error faults => ⟨faults.map .malformed, none⟩
    | .ok manifest => manifest.verify

def ManifestSource.verify : ManifestSource → Verification
  | .missing => ⟨[.missing], none⟩
  | .unreadable cause => ⟨[.unreadable cause], none⟩
  | .holds value => value.verify

end BuildPipeline
