import BuildPipeline.Graph.Basic
import BuildPipeline.Number.Basic

/-! Which builds need a job. Pruning leaves the graph alone: it gives every node
a status and the reason for it. -/

namespace BuildPipeline

inductive Status
  | keep
  | prunedBroken
  | prunedAvailable
  | prunedUnaffected
  | prunedExternal
deriving DecidableEq

def Status.name : Status → Text
  | .keep => "keep"
  | .prunedBroken => "pruned-broken"
  | .prunedAvailable => "pruned-available"
  | .prunedUnaffected => "pruned-unaffected"
  | .prunedExternal => "pruned-external"

structure Decision where
  status : Status
  reason : Text
deriving DecidableEq

/-- Decisions by fingerprint, one for each node in node order. -/
abbrev Pruning := List (Text × Decision)

structure PruneOptions where
  pruneBroken : Bool := false
  pruneUpToDate : Bool := false
  affectedOnly : Bool := false
  pruneExternal : Bool := false
  dependentDepth : Option Number := none
deriving DecidableEq

/-- What is known from outside: broken and cached fingerprints, and the names or
fingerprints of changed builds. -/
structure PruneSignals where
  broken : Option (List Text) := none
  available : Option (List Text) := none
  changed : Option (List Text) := none
deriving DecidableEq

/-- Whether one more level of dependents is within the depth. -/
def depthAllows (depth : Option Number) (level : Nat) : Bool :=
  match depth with
  | none => true
  | some limit => (Number.finite level).lt limit

def isNegativeDepth (depth : Option Number) : Bool :=
  match depth with
  | none => false
  | some limit => limit.lt (.finite 0)

namespace PipelineGraph

/-- Nodes named by a change, by name or fingerprint. -/
def matchedBy (graph : PipelineGraph) (changed : List Text) : List Text :=
  (graph.nodes.filter fun node => node.name ∈ changed || node.hash ∈ changed).map SpecNode.hash

/-- Changed nodes and their dependents up to the depth. A negative depth leaves
only the changed roots. -/
def reachedBy (graph : PipelineGraph) (changed : List Text) (depth : Option Number) : List Text :=
  let matched := graph.matchedBy changed
  if isNegativeDepth depth then matched.filter (· ∈ graph.roots)
  else Reach.climb graph.upward (depthAllows depth) 0 matched matched

/-- All that has to be looked at again after a change: what it reaches, and the
closures of that. -/
def affected (graph : PipelineGraph) (changed : List Text) (depth : Option Number) : List Text :=
  distinct ((graph.reachedBy changed depth).flatMap graph.closure)

end PipelineGraph

/-- One reason to prune, with the words for either outcome. -/
structure PruningPolicy where
  status : Status
  enabled : PruneOptions → Bool
  applies : PipelineGraph → PruneSignals → PruneOptions → SpecNode → Bool
  pruned : Text
  kept : Text

namespace PruningPolicy

def broken : PruningPolicy where
  status := .prunedBroken
  enabled := (·.pruneBroken)
  applies _ signals _ node := node.hash ∈ signals.broken.getD []
  pruned := "known broken"
  kept := "not known broken"

def available : PruningPolicy where
  status := .prunedAvailable
  enabled := (·.pruneUpToDate)
  applies _ signals _ node := node.hash ∈ signals.available.getD []
  pruned := "up-to-date in build cache"
  kept := "not found in build cache"

def unaffected : PruningPolicy where
  status := .prunedUnaffected
  enabled := (·.affectedOnly)
  applies graph signals options :=
    let affected := graph.affected (signals.changed.getD []) options.dependentDepth
    fun node => node.hash ∉ affected
  pruned := "unaffected by change"
  kept := "affected by change"

def external : PruningPolicy where
  status := .prunedExternal
  enabled := (·.pruneExternal)
  applies _ _ _ node := node.external
  pruned := "external spec"
  kept := "not external"

/-- The first enabled policy that applies decides. -/
def all : List PruningPolicy :=
  [broken, available, unaffected, external]

end PruningPolicy

namespace Pruning

def decision? (pruning : Pruning) (hash : Text) : Option Decision :=
  pruning.lookup hash

def isKept (pruning : Pruning) (hash : Text) : Bool :=
  (pruning.decision? hash).map Decision.status == some .keep

/-- The decision of a node that was pruned before. -/
def carried? (previous : Pruning) (hash : Text) : Option Decision :=
  (previous.decision? hash).filter (·.status ≠ .keep)

/-- The decision about a node that no policy has pruned. -/
def keepDecision (reasons : List Text) : Decision where
  status := .keep
  reason := if reasons.isEmpty then "no pruning enabled" else Text.join ", " reasons

end Pruning

/-- What is decided so far, and for every node that is still open what speaks for
keeping it. -/
structure PruneDraft where
  decided : Pruning := []
  keepReasons : List (Text × List Text) := []

namespace PruneDraft

def openHashes (draft : PruneDraft) : List Text :=
  draft.keepReasons.map Prod.fst

/-- A node pruned before keeps its decision, and all others are open. -/
def enter (previous : Pruning) (draft : PruneDraft) (node : SpecNode) : PruneDraft :=
  match previous.carried? node.hash with
  | some earlier => { draft with decided := draft.decided ++ [(node.hash, earlier)] }
  | none => { draft with keepReasons := draft.keepReasons ++ [(node.hash, [])] }

def settle (draft : PruneDraft) (hash : Text) (decision : Decision) : PruneDraft where
  decided := draft.decided ++ [(hash, decision)]
  keepReasons := draft.keepReasons.filter (·.1 ≠ hash)

def addReason (draft : PruneDraft) (hash reason : Text) : PruneDraft :=
  { draft with
    keepReasons := draft.keepReasons.map fun entry =>
      if entry.1 = hash then (hash, entry.2 ++ [reason]) else entry }

/-- A policy decides about an open node or gives a reason to keep it. -/
def consider (graph : PipelineGraph) (policy : PruningPolicy) (applies : SpecNode → Bool) (draft : PruneDraft)
    (hash : Text) : PruneDraft :=
  match graph.get? hash with
  | none => draft
  | some node =>
    if applies node then draft.settle hash ⟨policy.status, policy.pruned⟩ else draft.addReason hash policy.kept

/-- An enabled policy goes over all nodes that are open when its turn comes. -/
def ask (graph : PipelineGraph) (options : PruneOptions) (signals : PruneSignals) (draft : PruneDraft)
    (policy : PruningPolicy) : PruneDraft :=
  if policy.enabled options then
    let applies := policy.applies graph signals options
    -- A node that is settled leaves the open ones alone, so these are listed once.
    draft.openHashes.foldl (consider graph policy applies) draft
  else draft

/-- What is open after the last policy is kept. -/
def finish (draft : PruneDraft) : Pruning :=
  draft.decided ++ draft.keepReasons.map fun entry => (entry.1, Pruning.keepDecision entry.2)

end PruneDraft

namespace PipelineGraph

/-- One policy after the other is asked about the nodes that those before left open. -/
def prune (graph : PipelineGraph) (options : PruneOptions) (signals : PruneSignals)
    (previous : Pruning) : Pruning :=
  let entered := graph.nodes.foldl (PruneDraft.enter previous) {}
  let decisions := (PruningPolicy.all.foldl (PruneDraft.ask graph options signals) entered).finish
  graph.hashes.filterMap fun hash => (decisions.decision? hash).map (hash, ·)

def keptNodes (graph : PipelineGraph) (pruning : Pruning) : List SpecNode :=
  graph.nodes.filter fun node => pruning.isKept node.hash

end PipelineGraph

end BuildPipeline
