import BuildPipeline.Graph.Basic
import BuildPipeline.Manifest.Link

/-! From a linked stack to its graph: a depth-first walk from the roots that
finishes dependencies first and merges builds with one fingerprint. The walk keeps a
stack of its own, with a frame for every key on the path. -/

namespace BuildPipeline

/-- From a key to the keys that it lists as dependencies. -/
def LinkedStack.downward (stack : LinkedStack) : Reach.Steps Text where
  members := stack.specs.keys
  next := stack.dependenciesOf
  unique := stack.specs.unique
  inside := by
    intro source member edge
    cases found : stack.specs.get? source with
    | none => simp [dependenciesOf, found] at edge
    | some entry =>
      rw [dependenciesOf_eq found] at edge
      exact stack.dependencies_known _ (mem_of_lookup found) member edge
  outside := by
    intro source unknown
    cases found : stack.specs.get? source with
    | none => rw [dependenciesOf, found, Option.map_none, Option.getD_none]
    | some entry => exact absurd (List.mem_map_of_mem (mem_of_lookup found)) unknown

/-- Keys finished so far with their fingerprints, and the nodes they gave. -/
structure GraphBuild where
  hashes : List (Text × Text) := []
  nodes : List SpecNode := []

/-- A key on the path: the dependencies still to be looked at, and the fingerprints of
those that are finished. -/
structure Frame where
  key : Text
  entry : SpecEntry
  ahead : List Text := entry.dependencies
  done : List Text := []

namespace Frame

def node (frame : Frame) : SpecNode :=
  .ofContent frame.entry.content frame.done

def advance (frame : Frame) (ahead : List Text) : Frame :=
  { frame with ahead }

def receive (frame : Frame) (hash : Text) : Frame :=
  { frame with done := frame.done ++ [hash] }

@[simp] theorem key_advance (frame : Frame) (ahead : List Text) : (frame.advance ahead).key = frame.key := rfl

@[simp] theorem key_receive (frame : Frame) (hash : Text) : (frame.receive hash).key = frame.key := rfl

/-- The fingerprint of a finished dependency goes to the frame that waits for it. -/
def deliver (hash : Text) : List Frame → List Frame
  | [] => []
  | parent :: outer => parent.receive hash :: outer

@[simp] theorem map_key_deliver (hash : Text) (frames : List Frame) :
    (deliver hash frames).map key = frames.map key := by
  cases frames <;> rfl

/-- The keys that a stack of frames still has to pass. -/
def keysLeft (frames : List Frame) : List Text :=
  frames.flatMap fun frame => frame.key :: frame.ahead

theorem keysLeft_deliver (hash : Text) (frames : List Frame) : keysLeft (deliver hash frames) = keysLeft frames := by
  cases frames <;> rfl

end Frame

namespace GraphBuild

def hashOf? (build : GraphBuild) (key : Text) : Option Text :=
  build.hashes.lookup key

/-- A build that repeats an earlier fingerprint adds no node. -/
def finish (build : GraphBuild) (key : Text) (node : SpecNode) : GraphBuild where
  hashes := build.hashes ++ [(key, node.hash)]
  nodes := if build.nodes.any (·.hash = node.hash) then build.nodes else build.nodes ++ [node]

/-- The part of the path from `key` on, closed by `key`. -/
def cycleAt (path : List Text) (key : Text) : List Text :=
  path.dropWhile (· ≠ key) ++ [key]

/-- Keys that a walk has come to: finished ones, and those on the path. -/
def visited (build : GraphBuild) (onPath : List Text) : List Text :=
  build.hashes.map Prod.fst ++ onPath

theorem hashOf?_eq_none_iff {build : GraphBuild} {key : Text} :
    build.hashOf? key = none ↔ key ∉ build.hashes.map Prod.fst := by
  simp only [hashOf?, List.lookup_eq_none_iff, List.mem_map, bne_iff_ne, not_exists, not_and]
  exact forall₂_congr fun entry _ => ne_comm

/-- Finishing a key on the path leaves no key behind. -/
theorem visited_subset_finish (build : GraphBuild) (onPath : List Text) (key : Text) (node : SpecNode) :
    build.visited onPath ⊆ (build.finish key node).visited (onPath.erase key) := by
  intro other found
  simp only [visited, finish, List.map_append, List.map_cons, List.map_nil, List.mem_append, List.mem_singleton]
  by_cases same : other = key
  · exact .inl (.inr same)
  · rcases List.mem_append.1 found with finished | path
    · exact .inl (.inl finished)
    · exact .inr ((List.mem_erase_of_ne same).2 path)

/-- Runs until no frame is left or a dependency is on the path. The innermost frame comes
first. A frame that has nothing ahead is finished and leaves the path. -/
def run (stack : LinkedStack) (build : GraphBuild) (onPath : List Text) : List Frame → Except (List Text) GraphBuild
  | [] => .ok build
  | frame :: outer =>
    match _ : frame.ahead with
    | dependency :: ahead =>
      match _ : build.hashOf? dependency with
      | some hash => run stack build onPath ((frame.advance ahead).receive hash :: outer)
      | none =>
        if dependency ∈ onPath then .error (cycleAt ((frame :: outer).reverse.map Frame.key) dependency)
        else
          match _ : stack.specs.get? dependency with
          | none => run stack build onPath (frame.advance ahead :: outer)
          | some entry =>
            run stack build (onPath ++ [dependency]) ({ key := dependency, entry } :: frame.advance ahead :: outer)
    | [] =>
      run stack (build.finish frame.key frame.node) (onPath.erase frame.key) (Frame.deliver frame.node.hash outer)
termination_by frames =>
  (stack.downward.ahead (build.visited onPath)).length + (Frame.keysLeft frames).length
decreasing_by
  · rename_i pending _
    simp [Frame.keysLeft, Frame.advance, Frame.receive, pending]
  · rename_i pending _ _ _
    simp [Frame.keysLeft, Frame.advance, pending]
  · rename_i pending unfinished apart found
    have known : dependency ∈ stack.specs.keys := List.mem_map_of_mem (mem_of_lookup found)
    have fresh : dependency ∉ build.visited onPath := by
      rw [visited, List.mem_append]
      exact not_or.2 ⟨hashOf?_eq_none_iff.1 unfinished, apart⟩
    have fewer := stack.downward.length_ahead known fresh
    have own : stack.downward.next dependency = entry.dependencies := LinkedStack.dependenciesOf_eq found
    have path : build.visited onPath ++ [dependency] = build.visited (onPath ++ [dependency]) := List.append_assoc ..
    rw [own, path] at fewer
    simp only [Frame.keysLeft, Frame.advance, pending, List.flatMap_cons, List.length_append, List.length_cons]
    omega
  · rename_i pending
    have fewer := stack.downward.length_ahead_le (build.visited_subset_finish onPath frame.key frame.node)
    rw [Frame.keysLeft_deliver]
    simp only [Frame.keysLeft, pending, List.flatMap_cons, List.length_append, List.length_cons, List.length_nil]
    omega

/-- A key that is finished already is not visited again. -/
def visit (stack : LinkedStack) (build : GraphBuild) (key : Text) : Except (List Text) GraphBuild :=
  match build.hashOf? key, stack.specs.get? key with
  | none, some entry => run stack build [key] [{ key, entry }]
  | _, _ => .ok build

end GraphBuild

namespace LinkedStack

/-- The walk over all roots; an error lists the keys along a cycle. -/
def walk (stack : LinkedStack) : Except (List Text) GraphBuild :=
  stack.roots.foldlM (GraphBuild.visit stack) {}

def graph (stack : LinkedStack) : Except PipelineError PipelineGraph :=
  match stack.walk with
  | .error cycle => .error (.cyclicDependency (cycle.map stack.label))
  | .ok build => PipelineGraph.ofNodes? build.nodes (stack.roots.filterMap build.hashOf?)

end LinkedStack

end BuildPipeline
