import BuildPipeline.Proofs.Dependents
import BuildPipeline.Proofs.Descending
import BuildPipeline.Proofs.FirstFailure
import BuildPipeline.Proofs.LeastOrder

/-! The graph of a collection of nodes. It is refused when a dependency or a root is
missing from the collection. Otherwise its edges can be followed either way, and an index
that is built in one pass over the nodes holds the same dependents. -/

namespace BuildPipeline

namespace PipelineGraph
open Relation

/-- A node of the collection that no later one with its fingerprint replaces. -/
def IsLatest (given : List SpecNode) (node : SpecNode) : Prop :=
  ∃ before after, given = before ++ node :: after ∧ node.hash ∉ after.map SpecNode.hash

/-- A reference out of the collection, with the error that reports it. -/
inductive DanglingReference (given : List SpecNode) (roots : List Text) : PipelineError → Prop
  | dependency {node : SpecNode} {hash : Text} (latest : IsLatest given node) (named : hash ∈ node.dependencies)
      (unknown : hash ∉ given.map SpecNode.hash) :
      DanglingReference given roots (.unknownDependency node.name node.hash hash)
  | root {hash : Text} (named : hash ∈ roots) (unknown : hash ∉ given.map SpecNode.hash) :
      DanglingReference given roots (.unknownRoot hash)

/-- A graph of the collection whose edges can be followed in both directions. -/
structure Indexes (graph : PipelineGraph) (given : List SpecNode) (roots : List Text) : Prop where
  hashes : ∀ hash, hash ∈ graph.hashes ↔ hash ∈ given.map SpecNode.hash
  once : graph.hashes.Nodup
  nodes : ∀ node, node ∈ graph.nodes ↔ IsLatest given node
  roots : graph.roots = distinct roots
  dependencies : ∀ hash, (graph.dependenciesOf hash).Pairwise (· < ·)
  dependents : ∀ hash, (graph.dependentsOf hash).Pairwise (· < ·)
  converse : ∀ dependent hash, dependent ∈ graph.dependentsOf hash ↔ hash ∈ graph.dependenciesOf dependent
  indexed : ∀ hash, graph.dependentsOf hash = (DependentIndex.ofNodes (distinctNodes given)).dependents hash
  closure_once : ∀ hash, (graph.closure hash).Nodup
  closure : ∀ hash other, other ∈ graph.closure hash ↔ hash ∈ graph.hashes ∧
    ReflTransGen (fun dependent dependency => dependency ∈ graph.dependenciesOf dependent) hash other
  closure_unknown : ∀ hash, hash ∉ graph.hashes → graph.closure hash = []

end PipelineGraph

/-- Nodes made of contents and the fingerprints of what they depend on. -/
def madeNodes (builds : List (SpecContent × List Text)) : List SpecNode :=
  builds.map fun build => .ofContent build.1 build.2

def payloadsOf (builds : List (SpecContent × List Text)) : Set Text :=
  {payload | ∃ build ∈ builds, build.1.payload build.2 = payload}

theorem ascending_sortTexts {texts : List Text} (unique : texts.Nodup) : (sortTexts texts).Pairwise (· < ·) := by
  have sorted : (sortTexts texts).Pairwise (textLe · · = true) := textLe_ordered.sorted texts
  have once : (sortTexts texts).Nodup := (sortBy_perm textLe texts).nodup_iff.2 unique
  exact (sorted.and once).imp fun both => (textLe_eq_true_iff.1 both.1).resolve_left both.2

theorem nodup_dependencySet (hashes : List Text) : (dependencySet hashes).Nodup :=
  (sortBy_perm textLe _).nodup_iff.2 (nodup_distinct hashes)

theorem ascending_dependencySet (hashes : List Text) : (dependencySet hashes).Pairwise (· < ·) :=
  ascending_sortTexts (nodup_distinct hashes)

namespace PipelineGraph

variable {graph : PipelineGraph} {given : List SpecNode} {roots : List Text} {error : PipelineError}

theorem map_hash_distinctNodes (nodes : List SpecNode) :
    (distinctNodes nodes).map SpecNode.hash = distinct (nodes.map SpecNode.hash) := by
  induction nodes with
  | nil => rfl
  | cons node rest ih =>
    rw [distinctNodes, List.map_cons, hash_latest, List.map_cons, distinct, ← ih, List.filter_map]
    rfl

theorem mem_map_hash_distinctNodes {hash : Text} :
    hash ∈ (distinctNodes given).map SpecNode.hash ↔ hash ∈ given.map SpecNode.hash := by
  rw [map_hash_distinctNodes, mem_distinct]

theorem IsLatest.mem {node : SpecNode} (last : IsLatest given node) : node ∈ given := by
  obtain ⟨before, after, rfl, _⟩ := last
  simp

theorem isLatest_or_eq (node : SpecNode) (later : List SpecNode) :
    IsLatest later (latest node later) ∨ latest node later = node ∧ node.hash ∉ later.map SpecNode.hash := by
  unfold latest
  cases found : later.reverse.find? (·.hash = node.hash) with
  | none =>
    refine .inr ⟨rfl, fun listed => ?_⟩
    obtain ⟨other, member, same⟩ := List.mem_map.1 listed
    simpa [same] using List.find?_eq_none.1 found other (List.mem_reverse.2 member)
  | some other =>
    obtain ⟨same, after, before, split, apart⟩ := List.find?_eq_some_iff_append.1 found
    refine .inl ⟨before.reverse, after.reverse, by simpa using congrArg List.reverse split, fun listed => ?_⟩
    obtain ⟨twin, member, equal⟩ := List.mem_map.1 listed
    have different := apart twin (List.mem_reverse.1 member)
    simp only [decide_eq_true_eq] at same
    simp [equal, same] at different

/-- The table of a collection holds the last node of each fingerprint. -/
theorem mem_distinctNodes_iff {node : SpecNode} : node ∈ distinctNodes given ↔ IsLatest given node := by
  induction given generalizing node with
  | nil => simp [distinctNodes, IsLatest]
  | cons first rest ih =>
    have later : ∀ {other}, IsLatest rest other → IsLatest (first :: rest) other := by
      rintro other ⟨before, after, rfl, last⟩
      exact ⟨first :: before, after, rfl, last⟩
    rw [distinctNodes, List.mem_cons, List.mem_filter, ih, decide_eq_true_eq]
    constructor
    · rintro (rfl | ⟨last, _⟩)
      · rcases isLatest_or_eq first rest with last | ⟨same, alone⟩
        · exact later last
        · rw [same]
          exact ⟨[], rest, rfl, alone⟩
      · exact later last
    · rintro ⟨before, after, split, last⟩
      cases before with
      | nil =>
        obtain ⟨rfl, rfl⟩ := List.cons.inj split
        refine .inl ((isLatest_or_eq first rest).elim (fun replaced => ?_) fun alone => alone.1.symm)
        have listed := List.mem_map_of_mem (f := SpecNode.hash) replaced.mem
        rw [hash_latest] at listed
        exact absurd listed last
      | cons head front =>
        obtain ⟨rfl, rfl⟩ := List.cons.inj split
        by_cases same : node.hash = first.hash
        · have listed : first.hash ∈ (front ++ node :: after).map SpecNode.hash := by simp [← same]
          have replaced := (isLatest_or_eq first (front ++ node :: after)).resolve_right fun alone => alone.2 listed
          refine .inl (List.inj_on_of_nodup_map (nodup_distinctNodes (front ++ node :: after)) ?_ (ih.2 replaced) ?_)
          · exact ih.2 ⟨front, after, rfl, last⟩
          · rw [same, hash_latest]
        · exact .inr ⟨⟨front, after, rfl, last⟩, same⟩

theorem perm_of_ofNodes? (made : ofNodes? given roots = .ok graph) : graph.nodes.Perm (distinctNodes given) := by
  rw [nodes_of_ofNodes? made]
  exact sortBy_perm _ _

theorem mem_hashes_of_ofNodes? (made : ofNodes? given roots = .ok graph) {hash : Text} :
    hash ∈ graph.hashes ↔ hash ∈ given.map SpecNode.hash := by
  rw [hashes, ((perm_of_ofNodes? made).map SpecNode.hash).mem_iff, mem_map_hash_distinctNodes]

/-- What a collection is refused for is a reference out of it. -/
theorem danglingReference_of_error (refused : ofNodes? given roots = .error error) :
    DanglingReference given roots error := by
  unfold ofNodes? at refused
  simp only at refused
  split at refused
  next dangling =>
    obtain rfl := Except.error.inj refused
    rw [firstDangling?, Option.or_eq_some_iff] at dangling
    rcases dangling with named | ⟨_, rooted⟩
    · obtain ⟨node, listed, found⟩ := List.exists_of_findSome?_eq_some named
      obtain ⟨hash, first, rfl⟩ := Option.map_eq_some_iff.1 found
      refine .dependency (mem_distinctNodes_iff.1 listed) (List.mem_of_find?_eq_some first) ?_
      rw [← mem_map_hash_distinctNodes]
      simpa using List.find?_some first
    · obtain ⟨hash, first, rfl⟩ := Option.map_eq_some_iff.1 rooted
      refine .root (List.mem_of_find?_eq_some first) ?_
      rw [← mem_map_hash_distinctNodes]
      simpa using List.find?_some first
  next => cases refused

theorem not_danglingReference (made : ofNodes? given roots = .ok graph) : ¬ DanglingReference given roots error := by
  intro dangling
  cases dangling with
  | dependency last named unknown =>
    have listed := (perm_of_ofNodes? made).mem_iff.2 (mem_distinctNodes_iff.2 last)
    exact unknown ((mem_hashes_of_ofNodes? made).1 (graph.dependencies_known _ listed _ named))
  | @root hash named unknown =>
    have rooted : hash ∈ graph.roots := by rwa [roots_of_ofNodes? made, mem_distinct]
    exact unknown ((mem_hashes_of_ofNodes? made).1 (graph.roots_known hash rooted))

theorem exists_error_iff :
    (∃ error, ofNodes? given roots = .error error) ↔ ∃ error, DanglingReference given roots error := by
  constructor
  · rintro ⟨error, refused⟩
    exact ⟨error, danglingReference_of_error refused⟩
  · rintro ⟨error, dangling⟩
    cases outcome : ofNodes? given roots with
    | error other => exact ⟨other, rfl⟩
    | ok graph => exact absurd dangling (not_danglingReference outcome)

/-- The order in which the nodes are entered does not show, for what is entered is sorted. -/
theorem dependentsOf_eq_index (made : ofNodes? given roots = .ok graph) (hash : Text) :
    graph.dependentsOf hash = (DependentIndex.ofNodes (distinctNodes given)).dependents hash := by
  have same := perm_of_ofNodes? made
  have closed : ∀ node ∈ distinctNodes given, ∀ hash ∈ node.dependencies,
      hash ∈ (distinctNodes given).map SpecNode.hash := by
    intro node listed hash named
    exact (same.map SpecNode.hash).mem_iff.1 (graph.dependencies_known node (same.mem_iff.2 listed) hash named)
  rw [dependentsOf_eq, DependentIndex.dependents_ofNodes closed]
  exact sortBy_eq_of_perm textLe_ordered (fun a _ b _ => textLe_antisymm a b) (same.flatMap_right _)

theorem indexes_of_ofNodes? (sets : ∀ node ∈ given, ∃ hashes, node.dependencies = dependencySet hashes)
    (made : ofNodes? given roots = .ok graph) : graph.Indexes given roots := by
  have listed : ∀ {node}, node ∈ graph.nodes ↔ IsLatest given node := by
    intro node
    rw [(perm_of_ofNodes? made).mem_iff, mem_distinctNodes_iff]
  have ofSets : ∀ node ∈ graph.nodes, ∃ hashes, node.dependencies = dependencySet hashes :=
    fun node member => sets node (listed.1 member).mem
  constructor
  case hashes => exact fun hash => mem_hashes_of_ofNodes? made
  case once => exact graph.hashes_unique
  case nodes => exact fun node => listed
  case roots => exact roots_of_ofNodes? made
  case dependencies =>
    intro hash
    unfold dependenciesOf
    cases found : graph.get? hash with
    | none => exact .nil
    | some node =>
      obtain ⟨hashes, same⟩ := ofSets node (get?_eq_some_iff.1 found).1
      rw [Option.map_some, Option.getD_some, same]
      exact ascending_dependencySet hashes
  case dependents =>
    intro hash
    rw [dependentsOf_eq]
    refine ascending_sortTexts (DependentIndex.nodup_namers graph.hashes_unique (fun node member => ?_) hash)
    obtain ⟨hashes, same⟩ := ofSets node member
    rw [same]
    exact nodup_dependencySet hashes
  case converse => exact fun dependent hash => mem_dependentsOf
  case indexed => exact dependentsOf_eq_index made
  case closure_once => exact nodup_closure graph
  case closure => exact fun hash other => mem_closure
  case closure_unknown =>
    intro hash unknown
    refine List.eq_nil_iff_forall_not_mem.2 fun other found => ?_
    exact unknown (mem_closure.1 found).1

/-- Nodes that share a fingerprint depend on the same, unless payloads collide. -/
theorem dependencies_eq_of_hash_eq {builds : List (SpecContent × List Text)}
    (injective : Set.InjOn fingerprint (payloadsOf builds)) {left right : SpecNode} (first : left ∈ madeNodes builds)
    (second : right ∈ madeNodes builds) (same : left.hash = right.hash) : left.dependencies = right.dependencies := by
  obtain ⟨one, listed, rfl⟩ := List.mem_map.1 first
  obtain ⟨other, also, rfl⟩ := List.mem_map.1 second
  exact (SpecContent.payload_eq_iff.1 (injective ⟨one, listed, rfl⟩ ⟨other, also, rfl⟩ same)).2

/-- The node that stands for a node of the collection in the end. -/
theorem exists_isLatest {node : SpecNode} (listed : node ∈ given) :
    ∃ last, IsLatest given last ∧ last.hash = node.hash := by
  obtain ⟨last, kept, same⟩ := List.mem_map.1 (mem_map_hash_distinctNodes.2 (List.mem_map_of_mem listed))
  exact ⟨last, mem_distinctNodes_iff.1 kept, same⟩

section Made

variable {builds : List (SpecContent × List Text)} (injective : Set.InjOn fingerprint (payloadsOf builds))
include injective

theorem exists_danglingReference_iff :
    (∃ error, DanglingReference (madeNodes builds) roots error) ↔
      (∃ node ∈ madeNodes builds, ∃ hash ∈ node.dependencies, hash ∉ (madeNodes builds).map SpecNode.hash) ∨
        ∃ root ∈ roots, root ∉ (madeNodes builds).map SpecNode.hash := by
  constructor
  · rintro ⟨_, dangling⟩
    cases dangling with
    | dependency last named unknown => exact .inl ⟨_, last.mem, _, named, unknown⟩
    | root named unknown => exact .inr ⟨_, named, unknown⟩
  · rintro (⟨node, listed, hash, named, unknown⟩ | ⟨root, named, unknown⟩)
    · obtain ⟨last, kept, same⟩ := exists_isLatest listed
      rw [← dependencies_eq_of_hash_eq injective kept.mem listed same] at named
      exact ⟨_, .dependency kept named unknown⟩
    · exact ⟨_, .root named unknown⟩

theorem dependenciesOf_hash_of_made (made : ofNodes? (madeNodes builds) roots = .ok graph) {node : SpecNode}
    (listed : node ∈ madeNodes builds) : graph.dependenciesOf node.hash = node.dependencies := by
  obtain ⟨last, kept, same⟩ := exists_isLatest listed
  have stored := (perm_of_ofNodes? made).mem_iff.2 (mem_distinctNodes_iff.2 kept)
  rw [← same, dependenciesOf_hash stored]
  exact dependencies_eq_of_hash_eq injective kept.mem listed same

end Made

/-- A collection of made nodes is refused exactly for a dependency or a root out of it,
and otherwise has a graph whose edges can be followed both ways and all the way down. Of
nodes with one fingerprint the last counts; unless payloads collide, they are all alike. -/
theorem ofNodes?_indexes_unless_dangling (builds : List (SpecContent × List Text)) (roots : List Text) :
    (∀ error, ofNodes? (madeNodes builds) roots = .error error →
      DanglingReference (madeNodes builds) roots error) ∧
    ((∃ error, ofNodes? (madeNodes builds) roots = .error error) ↔
      ∃ error, DanglingReference (madeNodes builds) roots error) ∧
    (∀ graph, ofNodes? (madeNodes builds) roots = .ok graph → graph.Indexes (madeNodes builds) roots) ∧
    (Set.InjOn fingerprint (payloadsOf builds) →
      ((∃ error, ofNodes? (madeNodes builds) roots = .error error) ↔
        (∃ node ∈ madeNodes builds, ∃ hash ∈ node.dependencies, hash ∉ (madeNodes builds).map SpecNode.hash) ∨
          ∃ root ∈ roots, root ∉ (madeNodes builds).map SpecNode.hash) ∧
      ∀ graph, ofNodes? (madeNodes builds) roots = .ok graph →
        ∀ node ∈ madeNodes builds, graph.dependenciesOf node.hash = node.dependencies) := by
  have sets : ∀ node ∈ madeNodes builds, ∃ hashes, node.dependencies = dependencySet hashes := by
    intro node listed
    obtain ⟨build, _, rfl⟩ := List.mem_map.1 listed
    exact ⟨build.2, rfl⟩
  refine ⟨fun error => danglingReference_of_error, exists_error_iff, fun graph => indexes_of_ofNodes? sets, ?_⟩
  intro injective
  refine ⟨exists_error_iff.trans (exists_danglingReference_iff injective), fun graph made node listed => ?_⟩
  exact dependenciesOf_hash_of_made injective made listed

namespace Repeated

def library : SpecContent := { name := "zlib", version := "1" }

def application : SpecContent := { name := "app", version := "1" }

def libraryHash : Text := fingerprint (library.payload [])

def applicationHash : Text := fingerprint (application.payload [libraryHash, libraryHash])

/-- One build is listed twice, and the other names it twice. -/
def builds : List (SpecContent × List Text) :=
  [(library, []), (application, [libraryHash, libraryHash]), (library, [])]

theorem injOn_payloads : Set.InjOn fingerprint (payloadsOf builds) := by
  have apart : libraryHash ≠ applicationHash := by decide +kernel
  have either : ∀ payload ∈ payloadsOf builds,
      payload = library.payload [] ∨ payload = application.payload [libraryHash, libraryHash] := by
    rintro _ ⟨build, listed, rfl⟩
    simp only [builds, List.mem_cons, List.not_mem_nil, or_false] at listed
    rcases listed with rfl | rfl | rfl
    · exact .inl rfl
    · exact .inr rfl
    · exact .inl rfl
  intro left first right second same
  rcases either left first with rfl | rfl <;> rcases either right second with rfl | rfl
  · rfl
  · exact absurd same apart
  · exact absurd same.symm apart
  · rfl

theorem accepted : (ofNodes? (madeNodes builds) [applicationHash, applicationHash]).toOption.any (fun graph =>
    graph.roots = [applicationHash] && graph.dependentsOf libraryHash = [applicationHash] &&
    graph.closure applicationHash = [applicationHash, libraryHash]) = true := by
  decide +kernel

theorem notMem_hashes : ([103] : Text) ∉ (madeNodes builds).map SpecNode.hash := by
  decide +kernel

end Repeated

open Repeated in
theorem ofNodes?_indexes_unless_dangling_repeated :
    Set.InjOn fingerprint (payloadsOf builds) ∧
    (∃ graph, ofNodes? (madeNodes builds) [applicationHash, applicationHash] = .ok graph ∧
      graph.Indexes (madeNodes builds) [applicationHash, applicationHash] ∧
      graph.roots = [applicationHash] ∧ graph.dependentsOf libraryHash = [applicationHash] ∧
      graph.closure applicationHash = [applicationHash, libraryHash]) ∧
    ∃ error, ofNodes? (madeNodes builds) [libraryHash, [103]] = .error error := by
  obtain ⟨_, _, _, refused⟩ := ofNodes?_indexes_unless_dangling builds [libraryHash, [103]]
  obtain ⟨_, _, indexes, _⟩ := ofNodes?_indexes_unless_dangling builds [applicationHash, applicationHash]
  obtain ⟨graph, made, evaluated⟩ := exists_ok_of_any accepted
  simp only [Bool.and_eq_true, decide_eq_true_eq] at evaluated
  obtain ⟨⟨roots, dependents⟩, closure⟩ := evaluated
  refine ⟨injOn_payloads, ⟨graph, made, indexes graph made, roots, dependents, closure⟩, ?_⟩
  exact (refused injOn_payloads).1.2 (.inr ⟨[103], by simp, notMem_hashes⟩)

end PipelineGraph

end BuildPipeline
