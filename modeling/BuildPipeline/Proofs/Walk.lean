import BuildPipeline.Proofs.Finishing
import Mathlib.Data.List.Chain

/-! The walk from a linked stack to its nodes. Its frames hold the path from a root to the
key that it is at, so a walk that ends has finished every key behind the roots, and a
walk that stops shows a cycle. -/

namespace BuildPipeline
open Relation

variable {stack : LinkedStack}

namespace LinkedStack

/-- Keys along edges from one key back to it, none of them twice on the way. -/
structure IsCycle (stack : LinkedStack) (cycle : List Text) : Prop where
  closes : ∃ key inner, cycle = key :: inner ++ [key] ∧ (key :: inner).Nodup
  chain : cycle.IsChain stack.DependsOn

theorem IsCycle.transGen {cycle : List Text} (real : stack.IsCycle cycle) :
    ∃ key ∈ cycle, TransGen stack.DependsOn key key := by
  obtain ⟨key, inner, rfl, _⟩ := real.closes
  refine ⟨key, by simp, ?_⟩
  have chain := real.chain
  rw [List.cons_append] at chain
  cases shape : inner ++ [key] with
  | nil => simp at shape
  | cons next rest =>
    rw [shape, List.isChain_cons_cons] at chain
    have final : (next :: rest).getLast (List.cons_ne_nil _ _) = key := by
      simp only [← shape, List.getLast_append_singleton]
    exact TransGen.head' chain.1 (List.relationReflTransGen_of_exists_isChain_cons rest chain.2 final)

end LinkedStack

namespace GraphBuild

theorem isCycle_cycleAt {path : List Text} {key : Text} (unique : path.Nodup)
    (chain : (path ++ [key]).IsChain stack.DependsOn) (back : key ∈ path) :
    stack.IsCycle (cycleAt path key) := by
  obtain ⟨before, after, rfl⟩ := List.append_of_mem back
  have fresh : ∀ other ∈ before, decide (other ≠ key) = true := by
    intro other member
    simpa using (List.nodup_append.1 unique).2.2 other member key List.mem_cons_self
  have rest : cycleAt (before ++ key :: after) key = key :: after ++ [key] := by
    rw [cycleAt, List.dropWhile_append_of_pos fresh]
    simp
  rw [rest]
  refine ⟨⟨key, after, rfl, (List.nodup_append.1 unique).2.1⟩, ?_⟩
  rw [List.append_assoc] at chain
  exact chain.right_of_append

end GraphBuild

/-- What a frame knows of its key: the dependencies that it has passed are finished, then come
those that are waited for, and all others are ahead. -/
structure Frame.Holds (stack : LinkedStack) (build : GraphBuild) (waiting : List Text) (frame : Frame) : Prop where
  found : stack.specs.get? frame.key = some frame.entry
  parts : ∃ past, frame.entry.dependencies = past ++ waiting ++ frame.ahead ∧
    (∀ dependency ∈ past, (build.hashOf? dependency).isSome) ∧ frame.done = past.filterMap build.hashOf?

/-- Frames from the innermost on, where each one waits for the key of the one inside it. -/
inductive Held (stack : LinkedStack) (build : GraphBuild) : List Text → List Frame → Prop
  | nil {waiting : List Text} : Held stack build waiting []
  | cons {waiting : List Text} {frame : Frame} {outer : List Frame} (holds : frame.Holds stack build waiting)
      (below : Held stack build [frame.key] outer) : Held stack build waiting (frame :: outer)

namespace Frame.Holds

variable {build last : GraphBuild} {frame : Frame} {waiting ahead : List Text} {dependency hash : Text}

theorem enter {key : Text} {entry : SpecEntry} (found : stack.specs.get? key = some entry) (build : GraphBuild) :
    Frame.Holds stack build [] { key, entry } :=
  ⟨found, [], by simp, by simp, rfl⟩

theorem mono (holds : frame.Holds stack build waiting) (extends' : build.Extends last) :
    frame.Holds stack last waiting := by
  obtain ⟨past, split, finished, done⟩ := holds.parts
  refine ⟨holds.found, past, split, fun key passed => extends'.isSome (finished key passed), ?_⟩
  rw [done]
  refine List.filterMap_congr fun key passed => ?_
  obtain ⟨hash, known⟩ := Option.isSome_iff_exists.1 (finished key passed)
  rw [known, extends' key hash known]

theorem advance (holds : frame.Holds stack build []) (pending : frame.ahead = dependency :: ahead) :
    (frame.advance ahead).Holds stack build [dependency] := by
  obtain ⟨past, split, finished, done⟩ := holds.parts
  exact ⟨holds.found, past, by simpa [Frame.advance, pending] using split, finished, done⟩

theorem receive (holds : frame.Holds stack build [dependency]) (known : build.hashOf? dependency = some hash) :
    (frame.receive hash).Holds stack build [] := by
  obtain ⟨past, split, finished, done⟩ := holds.parts
  refine ⟨holds.found, past ++ [dependency], by simpa [Frame.receive] using split, fun key passed => ?_, ?_⟩
  · rcases List.mem_append.1 passed with before | last
    · exact finished key before
    · rw [List.mem_singleton.1 last, known, Option.isSome_some]
  · simp [Frame.receive, done, known]

theorem dependsOn (holds : frame.Holds stack build [dependency]) : stack.DependsOn frame.key dependency := by
  obtain ⟨past, split, _⟩ := holds.parts
  rw [LinkedStack.dependsOn_iff holds.found, split]
  simp

/-- A frame with nothing ahead has passed all its dependencies. -/
theorem ready (holds : frame.Holds stack build []) (finished : frame.ahead = []) :
    (∀ dependency ∈ frame.entry.dependencies, (build.hashOf? dependency).isSome) ∧
      frame.node = .ofContent frame.entry.content (frame.entry.dependencies.filterMap build.hashOf?) := by
  obtain ⟨past, split, passed, done⟩ := holds.parts
  rw [finished, List.append_nil, List.append_nil] at split
  rw [Frame.node, done, split]
  exact ⟨passed, rfl⟩

end Frame.Holds

theorem Held.mono {build last : GraphBuild} {waiting : List Text} {frames : List Frame}
    (held : Held stack build waiting frames) (extends' : build.Extends last) : Held stack last waiting frames := by
  induction held with
  | nil => exact .nil
  | cons holds _ ih => exact .cons (holds.mono extends') ih

/-- The keys of the frames are a path that leads to what the innermost one waits for. -/
theorem Held.isChain {build : GraphBuild} {dependency : Text} {frames : List Frame}
    (held : Held stack build [dependency] frames) :
    ((frames.reverse.map Frame.key) ++ [dependency]).IsChain stack.DependsOn := by
  induction frames generalizing dependency with
  | nil => exact .singleton _
  | cons frame outer ih =>
    obtain _ | ⟨holds, below⟩ := held
    rw [List.reverse_cons, List.map_append]
    exact (ih below).append (.singleton _) (by simpa using holds.dependsOn)

namespace GraphBuild

/-- The walk between two steps: what is finished is sound, and the frames hold a path of
reachable keys that are not finished. -/
structure Descent (stack : LinkedStack) (build : GraphBuild) (onPath : List Text) (frames : List Frame) : Prop where
  sound : build.Sound stack
  held : Held stack build [] frames
  path : onPath = frames.reverse.map Frame.key
  once : onPath.Nodup
  unfinished : ∀ key ∈ onPath, build.hashOf? key = none
  reachable : ∀ key ∈ onPath, stack.Reachable key

/-- How a walk ends that is to finish some keys. -/
def Ends (stack : LinkedStack) (build : GraphBuild) (keys : List Text) : Except (List Text) GraphBuild → Prop
  | .ok last => last.Sound stack ∧ build.Extends last ∧ ∀ key ∈ keys, (last.hashOf? key).isSome
  | .error cycle => stack.IsCycle cycle ∧ ∀ key ∈ cycle, stack.Reachable key

theorem Ends.of_extends {build middle : GraphBuild} {keys more : List Text}
    {outcome : Except (List Text) GraphBuild} (ends : Ends stack middle more outcome) (grown : build.Extends middle)
    (covered : ∀ key ∈ keys, key ∈ more ∨ (middle.hashOf? key).isSome) : Ends stack build keys outcome := by
  cases outcome with
  | error cycle => exact ends
  | ok last =>
    obtain ⟨sound, further, done⟩ := ends
    refine ⟨sound, grown.trans further, fun key wanted => ?_⟩
    rcases covered key wanted with later | already
    · exact done key later
    · exact further.isSome already

namespace Descent

variable {build : GraphBuild} {onPath ahead : List Text} {frame : Frame} {outer : List Frame}
variable {dependency hash : Text} {entry : SpecEntry}

theorem enter (sound : build.Sound stack) {key : Text} (found : stack.specs.get? key = some entry)
    (reachable : stack.Reachable key) (unfinished : build.hashOf? key = none) :
    Descent stack build [key] [{ key, entry }] where
  sound := sound
  held := .cons (.enter found build) .nil
  path := rfl
  once := List.nodup_singleton key
  unfinished := by simpa using unfinished
  reachable := by simpa using reachable

/-- The innermost frame then waits for its next dependency. -/
theorem held_advance (descent : Descent stack build onPath (frame :: outer))
    (pending : frame.ahead = dependency :: ahead) :
    Held stack build [dependency] (frame.advance ahead :: outer) := by
  obtain _ | ⟨holds, below⟩ := descent.held
  exact .cons (holds.advance pending) below

theorem mem_onPath (descent : Descent stack build onPath (frame :: outer)) : frame.key ∈ onPath := by
  rw [descent.path]
  simp

theorem erase_key (descent : Descent stack build onPath (frame :: outer)) :
    onPath.erase frame.key = outer.reverse.map Frame.key := by
  have path : onPath = outer.reverse.map Frame.key ++ [frame.key] := by simpa using descent.path
  have once := path ▸ descent.once
  have apart : frame.key ∉ outer.reverse.map Frame.key := fun before =>
    (List.nodup_append.1 once).2.2 _ before _ List.mem_cons_self rfl
  rw [path, List.erase_append_right _ apart, List.erase_cons_head, List.append_nil]

theorem reachable_ahead (descent : Descent stack build onPath (frame :: outer))
    (pending : frame.ahead = dependency :: ahead) : stack.Reachable dependency := by
  obtain _ | ⟨holds, _⟩ := descent.held_advance pending
  exact (descent.reachable frame.key descent.mem_onPath).tail holds.dependsOn

theorem receive (descent : Descent stack build onPath (frame :: outer)) (pending : frame.ahead = dependency :: ahead)
    (known : build.hashOf? dependency = some hash) :
    Descent stack build onPath ((frame.advance ahead).receive hash :: outer) := by
  obtain _ | ⟨holds, below⟩ := descent.held_advance pending
  exact { descent with held := .cons (holds.receive known) below, path := by simpa using descent.path }

theorem push (descent : Descent stack build onPath (frame :: outer)) (pending : frame.ahead = dependency :: ahead)
    (unfinished : build.hashOf? dependency = none) (apart : dependency ∉ onPath)
    (found : stack.specs.get? dependency = some entry) :
    Descent stack build (onPath ++ [dependency]) ({ key := dependency, entry } :: frame.advance ahead :: outer) where
  sound := descent.sound
  held := .cons (.enter found build) (descent.held_advance pending)
  path := by
    simp [descent.path]
  once := by
    refine List.nodup_append.2 ⟨descent.once, List.nodup_singleton _, ?_⟩
    rintro key before _ last rfl
    exact apart (List.mem_singleton.1 last ▸ before)
  unfinished := by
    simpa [or_imp, forall_and] using ⟨descent.unfinished, unfinished⟩
  reachable := by
    simpa [or_imp, forall_and] using ⟨descent.reachable, descent.reachable_ahead pending⟩

theorem pop (descent : Descent stack build onPath (frame :: outer)) (finished : frame.ahead = []) :
    Descent stack (build.finish frame.key frame.node) (onPath.erase frame.key)
      (Frame.deliver frame.node.hash outer) := by
  obtain _ | ⟨holds, below⟩ := descent.held
  obtain ⟨ready, made⟩ := holds.ready finished
  have reachable := descent.reachable frame.key descent.mem_onPath
  have unfinished := descent.unfinished frame.key descent.mem_onPath
  have known : (build.finish frame.key frame.node).hashOf? frame.key = some frame.node.hash := by
    rw [hashOf?_finish, unfinished]
    simp
  have later := below.mono (build.extends_finish frame.key frame.node)
  constructor
  case sound =>
    rw [made]
    exact descent.sound.finish holds.found reachable ready
  case held =>
    -- The frame below waits for this key alone, and the fingerprint goes there.
    obtain _ | ⟨parent, others⟩ := later
    · exact .nil
    · exact .cons (parent.receive known) others
  case path => rw [List.map_reverse, Frame.map_key_deliver, ← List.map_reverse, descent.erase_key]
  case once => exact descent.once.erase _
  case unfinished =>
    intro key member
    obtain ⟨apart, before⟩ := descent.once.mem_erase_iff.1 member
    rw [hashOf?_finish, descent.unfinished key before, if_neg apart]
    rfl
  case reachable => exact fun key member => descent.reachable key (List.mem_of_mem_erase member)

theorem isCycle (descent : Descent stack build onPath (frame :: outer)) (pending : frame.ahead = dependency :: ahead)
    (back : dependency ∈ onPath) :
    Ends stack build onPath (.error (cycleAt ((frame :: outer).reverse.map Frame.key) dependency)) := by
  have chain := (descent.held_advance pending).isChain
  have same : (frame.advance ahead :: outer).reverse.map Frame.key = onPath := by
    simp [descent.path]
  rw [same] at chain
  rw [← descent.path]
  refine ⟨isCycle_cycleAt descent.once chain back, fun key member => ?_⟩
  rcases List.mem_append.1 member with earlier | last
  · exact descent.reachable key ((List.dropWhile_sublist _).subset earlier)
  · rw [List.mem_singleton.1 last]
    exact descent.reachable_ahead pending

theorem run {frames : List Frame} (descent : Descent stack build onPath frames) :
    Ends stack build onPath (GraphBuild.run stack build onPath frames) := by
  fun_induction GraphBuild.run stack build onPath frames with
  | case1 build onPath =>
    refine ⟨descent.sound, .refl build, ?_⟩
    simp [descent.path]
  | case2 build onPath frame outer dependency ahead pending hash known ih =>
    exact ih (descent.receive pending known)
  | case3 build onPath frame outer dependency ahead pending unfinished back =>
    exact descent.isCycle pending back
  | case4 build onPath frame outer dependency ahead pending unfinished apart absent ih =>
    obtain ⟨entry, found⟩ := Table.exists_get?_of_mem_keys (descent.reachable_ahead pending).mem_keys
    cases absent.symm.trans found
  | case5 build onPath frame outer dependency ahead pending unfinished apart entry found ih =>
    exact (ih (descent.push pending unfinished apart found)).of_extends (.refl build) fun key wanted =>
      .inl (List.mem_append_left _ wanted)
  | case6 build onPath frame outer finished ih =>
    refine (ih (descent.pop finished)).of_extends (build.extends_finish _ _) fun key wanted => ?_
    by_cases own : key = frame.key
    · exact .inr (by simp [hashOf?_finish, own])
    · exact .inl ((List.mem_erase_of_ne own).2 wanted)

end Descent

theorem ends_visit {build : GraphBuild} (sound : build.Sound stack) {key : Text} (reachable : stack.Reachable key) :
    Ends stack build [key] (visit stack build key) := by
  obtain ⟨entry, found⟩ := Table.exists_get?_of_mem_keys reachable.mem_keys
  cases known : build.hashOf? key with
  | some hash => simp [visit, known, Ends, sound, Extends.refl]
  | none =>
    simp only [visit, known, found]
    exact (Descent.enter sound found reachable known).run

/-- Roots are visited one after another until a visit shows a cycle. -/
theorem ends_foldlM_visit {build : GraphBuild} (sound : build.Sound stack) {keys : List Text}
    (reachable : ∀ key ∈ keys, stack.Reachable key) : Ends stack build keys (keys.foldlM (visit stack) build) := by
  induction keys generalizing build with
  | nil => exact ⟨sound, .refl build, by simp⟩
  | cons key rest ih =>
    obtain ⟨head, reachable⟩ := List.forall_mem_cons.1 reachable
    have first := ends_visit sound head
    rw [List.foldlM_cons]
    cases visited : visit stack build key with
    | error cycle =>
      rw [visited] at first
      exact first
    | ok middle =>
      rw [visited] at first
      refine (ih first.1 reachable).of_extends first.2.1 fun other wanted => ?_
      rcases List.mem_cons.1 wanted with rfl | later
      · exact .inr (first.2.2 other List.mem_cons_self)
      · exact .inl later

end GraphBuild

namespace LinkedStack

theorem walk_ends (stack : LinkedStack) : GraphBuild.Ends stack {} stack.roots stack.walk :=
  GraphBuild.ends_foldlM_visit GraphBuild.sound_empty fun root listed => ⟨root, listed, .refl⟩

theorem walk_sound {build : GraphBuild} (walked : stack.walk = .ok build) :
    build.Sound stack ∧ ∀ root ∈ stack.roots, (build.hashOf? root).isSome := by
  have ends := stack.walk_ends
  rw [walked] at ends
  exact ⟨ends.1, ends.2.2⟩

theorem walk_error {cycle : List Text} (stopped : stack.walk = .error cycle) :
    stack.IsCycle cycle ∧ ∀ key ∈ cycle, stack.Reachable key := by
  have ends := stack.walk_ends
  rwa [stopped] at ends

/-- Without a reachable cycle the walk reaches its end. -/
theorem Acyclic.exists_walk (acyclic : stack.Acyclic) : ∃ build, stack.walk = .ok build := by
  cases walked : stack.walk with
  | ok build => exact ⟨build, rfl⟩
  | error cycle =>
    obtain ⟨real, reachable⟩ := walk_error walked
    obtain ⟨key, member, back⟩ := real.transGen
    exact absurd back (acyclic key (reachable key member))

end LinkedStack

namespace PipelineGraph

theorem distinctNodes_of_nodup {nodes : List SpecNode} (unique : (nodes.map SpecNode.hash).Nodup) :
    distinctNodes nodes = nodes := by
  induction nodes with
  | nil => rfl
  | cons node rest ih =>
    obtain ⟨fresh, distinct⟩ := List.nodup_cons.1 unique
    have apart : ∀ other ∈ rest, other.hash ≠ node.hash := fun other member same =>
      fresh (same ▸ List.mem_map_of_mem member)
    have last : latest node rest = node := by
      have absent : rest.reverse.find? (·.hash = node.hash) = none := by simpa using apart
      rw [latest, absent, Option.getD_none]
    rw [distinctNodes, ih distinct, last, List.filter_eq_self.2]
    simpa using apart

theorem exists_ofNodes? {nodes : List SpecNode} {roots : List Text}
    (unique : (nodes.map SpecNode.hash).Nodup)
    (known : ∀ node ∈ nodes, ∀ hash ∈ node.dependencies, hash ∈ nodes.map SpecNode.hash)
    (rooted : ∀ hash ∈ roots, hash ∈ nodes.map SpecNode.hash) :
    ∃ graph, ofNodes? nodes roots = .ok graph ∧ graph.nodes = sortBy SpecNode.le nodes ∧
      graph.roots = distinct roots := by
  have closed : firstDangling? (distinctNodes nodes) roots = none := by
    simp only [distinctNodes_of_nodup unique, firstDangling?, Option.or_eq_none_iff,
      List.findSome?_eq_none_iff, Option.map_eq_none_iff, List.find?_eq_none]
    exact ⟨fun node listed hash named => by simpa using known node listed hash named,
      fun hash root => by simpa using rooted hash root⟩
  unfold ofNodes?
  simp only
  split
  next dangling => simp [closed] at dangling
  next => exact ⟨_, rfl, by simp only [distinctNodes_of_nodup unique], rfl⟩

end PipelineGraph

namespace GraphBuild

variable {build : GraphBuild}

theorem Sound.known (sound : build.Sound stack) :
    ∀ node ∈ build.nodes, ∀ hash ∈ node.dependencies, hash ∈ build.nodes.map SpecNode.hash := by
  intro node listed hash named
  obtain ⟨before, after, split⟩ := List.append_of_mem listed
  have ordered := sound.ordered
  rw [split] at ordered ⊢
  rcases ordered.of_append hash named with impossible | earlier
  · cases impossible
  · rw [List.map_append]
    exact List.mem_append_left _ earlier

theorem Sound.rooted (sound : build.Sound stack) (keys : List Text) :
    ∀ hash ∈ keys.filterMap build.hashOf?, hash ∈ build.nodes.map SpecNode.hash := by
  intro hash member
  obtain ⟨key, _, known⟩ := List.mem_filterMap.1 member
  exact (sound.finished key hash known).1

end GraphBuild

namespace LinkedStack

theorem exists_graph_of_walk {build : GraphBuild} (walked : stack.walk = .ok build) :
    ∃ graph, stack.graph = .ok graph ∧ graph.nodes.Perm build.nodes ∧
      graph.roots = distinct (stack.roots.filterMap build.hashOf?) ∧
      graph.nodes.Pairwise (SpecNode.le · · = true) := by
  obtain ⟨sound, _⟩ := walk_sound walked
  obtain ⟨graph, made, nodes, roots⟩ :=
    PipelineGraph.exists_ofNodes? sound.unique sound.known (sound.rooted stack.roots)
  refine ⟨graph, by simp only [LinkedStack.graph, walked, made], ?_, roots, ?_⟩
  · exact nodes ▸ sortBy_perm SpecNode.le build.nodes
  · exact nodes ▸ SpecNode.le_ordered.sorted build.nodes

theorem exists_walk_of_graph {graph : PipelineGraph} (made : stack.graph = .ok graph) :
    ∃ build, stack.walk = .ok build ∧ graph.nodes.Perm build.nodes := by
  cases walked : stack.walk with
  | error cycle => simp [LinkedStack.graph, walked] at made
  | ok build =>
    obtain ⟨other, same, nodes, _⟩ := exists_graph_of_walk walked
    obtain rfl := Except.ok.inj (made.symm.trans same)
    exact ⟨build, rfl, nodes⟩

/-- Each node of a graph was finished behind its dependencies. -/
theorem acyclic_of_graph {graph : PipelineGraph} (made : stack.graph = .ok graph) : graph.Acyclic := by
  obtain ⟨build, walked, nodes⟩ := exists_walk_of_graph made
  exact PipelineGraph.acyclic_of_dependenciesFirst nodes.symm (walk_sound walked).1.ordered

end LinkedStack

end BuildPipeline
