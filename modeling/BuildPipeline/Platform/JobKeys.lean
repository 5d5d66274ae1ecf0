import BuildPipeline.Spec.Node
import BuildPipeline.Error

/-! The keys under which jobs are written. Two builds may not share one. -/

namespace BuildPipeline

/-- Keys by fingerprint. -/
abbrev JobKeys := List (Text × Text)

/-- The keys given out so far, and who has each of them. -/
structure KeyDraft where
  keys : JobKeys := []
  owners : List (Text × Text) := []

namespace KeyDraft

def give (draft : KeyDraft) (key hash : Text) : KeyDraft :=
  ⟨assignEntry draft.keys hash key, assignEntry draft.owners key hash⟩

/-- A key that the same build had before is given again. -/
def add (keyOf : SpecNode → Text) (draft : KeyDraft) (node : SpecNode) : Except PipelineError KeyDraft :=
  let key := keyOf node
  match draft.owners.lookup key with
  | none => .ok (draft.give key node.hash)
  | some owner =>
    if owner = node.hash then .ok (draft.give key node.hash)
    else .error (.duplicateJob key owner node.hash)

end KeyDraft

def jobKeys (nodes : List SpecNode) (keyOf : SpecNode → Text) : Except PipelineError JobKeys :=
  (nodes.foldlM (KeyDraft.add keyOf) {}).map KeyDraft.keys

end BuildPipeline
