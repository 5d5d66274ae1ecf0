import BuildPipeline.Manifest.Link
import BuildPipeline.Proofs.Tables
import BuildPipeline.Spec.Node
import Mathlib.Logic.Relation

/-! Builds with all their dependencies unfolded. A table of builds shares them by
key; the tree of a key forgets the keys and leaves what the fingerprint is of. -/

namespace BuildPipeline
open Relation

inductive SpecTree
  | build (content : SpecContent) (dependencies : List SpecTree)

namespace SpecTree

instance : Inhabited SpecTree := ⟨.build { name := [], version := [] } []⟩

/-- The fingerprint, computed from the leaves on. -/
def hash : SpecTree → Text
  | .build content dependencies => fingerprint (content.payload (dependencies.map hash))

/-- The text that the fingerprint is taken of. -/
def payload : SpecTree → Text
  | .build content dependencies => content.payload (dependencies.map hash)

/-- The node that stands for the tree in a graph. -/
def node : SpecTree → SpecNode
  | .build content dependencies => .ofContent content (dependencies.map hash)

theorem hash_eq (tree : SpecTree) : tree.hash = fingerprint tree.payload := by
  cases tree
  rw [hash, payload]

@[simp] theorem hash_node (tree : SpecTree) : tree.node.hash = tree.hash := by
  cases tree
  rw [hash, node]
  rfl

end SpecTree

namespace LinkedStack

variable {stack : LinkedStack}

def DependsOn (stack : LinkedStack) (key dependency : Text) : Prop :=
  dependency ∈ stack.dependenciesOf key

def Reachable (stack : LinkedStack) (key : Text) : Prop :=
  ∃ root ∈ stack.roots, ReflTransGen stack.DependsOn root key

def Acyclic (stack : LinkedStack) : Prop :=
  ∀ key, stack.Reachable key → ¬ TransGen stack.DependsOn key key

/-- The tree of a key holds its content above the trees of its dependencies. -/
inductive Unfolds (stack : LinkedStack) : Text → SpecTree → Prop
  | entry {key : Text} {entry : SpecEntry} {below : Text → SpecTree}
      (found : stack.specs.get? key = some entry)
      (unfolds : ∀ dependency ∈ entry.dependencies, Unfolds stack dependency (below dependency)) :
      Unfolds stack key (.build entry.content (entry.dependencies.map below))

theorem Unfolds.leaf {key : Text} {content : SpecContent} (found : stack.specs.get? key = some ⟨content, []⟩) :
    stack.Unfolds key (.build content []) :=
  @Unfolds.entry stack key ⟨content, []⟩ (fun _ => default) found (by simp)

theorem dependsOn_iff {key dependency : Text} {entry : SpecEntry} (found : stack.specs.get? key = some entry) :
    stack.DependsOn key dependency ↔ dependency ∈ entry.dependencies := by
  rw [DependsOn, dependenciesOf_eq found]

theorem DependsOn.exists_entry {key dependency : Text} (edge : stack.DependsOn key dependency) :
    ∃ entry, stack.specs.get? key = some entry ∧ dependency ∈ entry.dependencies := by
  cases found : stack.specs.get? key with
  | none => simp [DependsOn, dependenciesOf, found] at edge
  | some entry => exact ⟨entry, rfl, (dependsOn_iff found).1 edge⟩

theorem DependsOn.mem_keys {key dependency : Text} (edge : stack.DependsOn key dependency) :
    dependency ∈ stack.specs.keys := by
  obtain ⟨entry, found, named⟩ := edge.exists_entry
  exact stack.dependencies_known _ (Table.get?_eq_some_iff.1 found) dependency named

theorem Reachable.mem_keys {key : Text} (reachable : stack.Reachable key) : key ∈ stack.specs.keys := by
  obtain ⟨root, listed, path⟩ := reachable
  cases path with
  | refl => exact stack.roots_known _ listed
  | tail _ edge => exact edge.mem_keys

theorem Reachable.tail {key dependency : Text} (reachable : stack.Reachable key)
    (edge : stack.DependsOn key dependency) : stack.Reachable dependency := by
  obtain ⟨root, listed, path⟩ := reachable
  exact ⟨root, listed, path.tail edge⟩

theorem Unfolds.unique {key : Text} {left right : SpecTree} (first : stack.Unfolds key left)
    (second : stack.Unfolds key right) : left = right := by
  induction first generalizing right with
  | entry found _ ih =>
    cases second with
    | entry again unfolds =>
      obtain rfl := Option.some.inj (found.symm.trans again)
      congr 1
      exact List.map_congr_left fun dependency named => ih dependency named (unfolds dependency named)

end LinkedStack

end BuildPipeline
