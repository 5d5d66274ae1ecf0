import BuildPipeline.Rule.Basic
import BuildPipeline.Pruning

/-! The attributes of a job: every matching rule applied to the variables that a
build carries anyway, lowest precedence first. -/

namespace BuildPipeline

/-- Runner tags kept for signing jobs. No build job may request them. -/
def reservedTags : List Text := ["notary", "protected", "public"]

def withoutReservedTags (tags : List Text) : List Text :=
  tags.filter (· ∉ reservedTags)

structure JobAttributes where
  tags : List Text
  vars : Table Text
  orderHint : Nat
  allowFailure : Bool
deriving DecidableEq

namespace SpecNode

/-- What tells a job's script which build it is for. -/
def builtinVariables (node : SpecNode) : Table Text :=
  let compiler : List (Text × Text) := match node.compiler with
    | some compiler =>
      [("STACKCI_JOB_SPEC_COMPILER_NAME", compiler.name),
       ("STACKCI_JOB_SPEC_COMPILER_VERSION", compiler.version)]
    | none => []
  let arch : List (Text × Text) := match node.arch with
    | some arch => [("STACKCI_JOB_SPEC_ARCH", arch)]
    | none => []
  let always : List (Text × Text) :=
    [("STACKCI_JOB_SPEC_HASH", node.hash),
     ("STACKCI_JOB_SPEC_PKG_NAME", node.name),
     ("STACKCI_JOB_SPEC_PKG_VERSION", node.version)]
  let listed := variantsText node.variants
  let variants : List (Text × Text) :=
    if listed = "" then [] else [("STACKCI_JOB_SPEC_VARIANTS", listed)]
  Table.ofEntries (always ++ compiler ++ arch ++ variants)

end SpecNode

/-- Attributes while rules are being applied. -/
structure AttributeDraft where
  tags : Option (List Text) := none
  vars : Table Text
  orderHint : Option Number := none
  allowFailure : Bool := false

namespace AttributeDraft

/-- A rule touches only the fields that it sets; variables merge key by key. -/
def apply (draft : AttributeDraft) (attributes : RuleAttributes) : AttributeDraft where
  tags := (attributes.tags.map withoutReservedTags).or draft.tags
  vars := draft.vars.merge (attributes.vars.getD Table.empty)
  orderHint := attributes.orderHint.or draft.orderHint
  allowFailure := attributes.allowFailure.getD draft.allowFailure

/-- A job needs at least one tag and a whole order hint from zero on. -/
def finish (draft : AttributeDraft) (node : SpecNode) : Except PipelineError JobAttributes :=
  let tags := draft.tags.getD []
  if tags.isEmpty then .error (.missingAttribute node.hash node.label .tags)
  else
    match draft.orderHint.bind Number.natural? with
    | none => .error (.missingAttribute node.hash node.label .orderHint)
    | some orderHint =>
      .ok ⟨sortTexts (distinct tags), draft.vars.sorted, orderHint, draft.allowFailure⟩

end AttributeDraft

namespace SpecNode

def matchingRules (node : SpecNode) (rules : List AttributeRule) : List AttributeRule :=
  rules.filter fun rule => node.satisfies rule.predicate

def resolveAttributes (node : SpecNode) (rules : List AttributeRule) :
    Except PipelineError JobAttributes :=
  let start : AttributeDraft := { vars := node.builtinVariables }
  let draft := (node.matchingRules (sortRules rules)).foldl
    (fun draft rule => draft.apply rule.attributes) start
  draft.finish node

end SpecNode

/-- Attributes of the kept nodes by fingerprint. -/
abbrev AttributeMap := List (Text × JobAttributes)

namespace PipelineGraph

/-- Kept nodes in the order of their fingerprints; the first failure is the result. -/
def resolveAttributes (graph : PipelineGraph) (pruning : Pruning) (config : CiConfig) :
    Except PipelineError AttributeMap :=
  let rules := config.compileRules
  let kept := sortBy (fun left right => textLe left.hash right.hash) (graph.keptNodes pruning)
  kept.mapM fun node => do return (node.hash, ← node.resolveAttributes rules)

end PipelineGraph

end BuildPipeline
