import BuildPipeline.Graph.Order
import BuildPipeline.Plan.Bridge
import BuildPipeline.Rule.Attributes

/-! Jobs and their stages. A job's stage is its order hint, pushed past the stage
of every job that it needs. Stages are doubles, so a step up is rounded. -/

namespace BuildPipeline

/-- A graph with its pruning and the attributes of every kept node. -/
structure AnnotatedPipeline where
  graph : PipelineGraph
  pruning : Pruning
  attributes : AttributeMap

structure PlannedJob where
  node : SpecNode
  attributes : JobAttributes
  needs : List Text
  stage : Nat
deriving DecidableEq

/-- The stages in use, ascending, and the jobs by stage, name and fingerprint. -/
structure JobPlan where
  jobs : List PlannedJob
  stages : List Nat
deriving DecidableEq

def stageAfter (stage : Nat) : Nat :=
  Binary64.roundNat (stage + 1)

/-- Jobs planned so far, latest last, with their stages by fingerprint. -/
structure PlanDraft where
  memo : BridgeMemo := []
  stages : List (Text × Nat) := []
  jobs : List PlannedJob := []

namespace PlanDraft

def stageOf (draft : PlanDraft) (hash : Text) : Nat :=
  (draft.stages.lookup hash).getD 0

def add (pipeline : AnnotatedPipeline) (draft : PlanDraft) (node : SpecNode) :
    Except PipelineError PlanDraft :=
  match pipeline.attributes.lookup node.hash with
  | none => .error (.unresolvedJob node.name node.hash)
  | some attributes =>
    let (needs, memo) := pipeline.graph.bridgedDependencies pipeline.pruning draft.memo node.hash
    let stage := needs.foldl (fun stage need => max stage (stageAfter (draft.stageOf need)))
      attributes.orderHint
    .ok {
      memo
      stages := draft.stages ++ [(node.hash, stage)]
      jobs := draft.jobs ++ [⟨node, attributes, needs, stage⟩] }

end PlanDraft

def PlannedJob.le (left right : PlannedJob) : Bool :=
  if left.stage = right.stage then left.node.le right.node else left.stage < right.stage

/-- Each stage once, ascending. -/
def stagesOf (jobs : List PlannedJob) : List Nat :=
  sortBy (· ≤ ·) (distinct (jobs.map PlannedJob.stage))

namespace AnnotatedPipeline

/-- One job per kept node. -/
def plan (pipeline : AnnotatedPipeline) : Except PipelineError JobPlan := do
  let kept := pipeline.graph.topologicalOrder.filter fun node => pipeline.pruning.isKept node.hash
  let draft ← kept.foldlM (PlanDraft.add pipeline) {}
  let jobs := sortBy PlannedJob.le draft.jobs
  return ⟨jobs, stagesOf jobs⟩

end AnnotatedPipeline

end BuildPipeline
