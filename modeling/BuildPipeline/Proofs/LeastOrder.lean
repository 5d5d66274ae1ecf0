import BuildPipeline.Proofs.Agreement
import BuildPipeline.Proofs.BuildOrder
import Mathlib.Data.List.Lex

/-! Of all orders that list dependencies first, the build order is the least one. Taking
the first ready node from a sorted list is the least choice at every turn. -/

namespace BuildPipeline

theorem textLe_eq_true_iff {left right : Text} : textLe left right = true ↔ left = right ∨ left < right := by
  induction left generalizing right with
  | nil =>
    cases right with
    | nil => simp [textLe]
    | cons other others => simp [textLe]
  | cons first rest ih =>
    cases right with
    | nil => simp [textLe]
    | cons other others =>
      simp only [textLe, Bool.or_eq_true, Bool.and_eq_true, decide_eq_true_eq, beq_iff_eq, ih,
        List.cons.injEq, List.cons_lt_cons_iff]
      tauto

/-- The first member that passes a test comes before every other one that does. -/
theorem find?_least {α : Type _} {le : α → α → Bool} {test : α → Bool} {items : List α} {found item : α}
    (sorted : items.Pairwise (le · · = true)) (first : items.find? test = some found)
    (listed : item ∈ items) (passes : test item = true) : item = found ∨ le found item = true := by
  induction sorted with
  | nil => cases listed
  | @cons head rest least _ ih =>
    by_cases passed : test head = true
    · obtain rfl : head = found := by simpa [List.find?_cons, passed] using first
      rcases List.mem_cons.1 listed with same | later
      · exact .inl same
      · exact .inr (least item later)
    · rw [List.find?_cons_of_neg passed] at first
      rcases List.mem_cons.1 listed with rfl | later
      · exact absurd passes passed
      · exact ih first later

namespace SpecNode

/-- By name and then by fingerprint, both compared unit by unit. -/
def Precedes (left right : SpecNode) : Prop :=
  left.name < right.name ∨ left.name = right.name ∧ left.hash < right.hash

theorem precedes_of_le {left right : SpecNode} (before : left.le right = true) (apart : left.hash ≠ right.hash) :
    left.Precedes right := by
  unfold le at before
  split at before
  next same => exact .inr ⟨same, (textLe_eq_true_iff.1 before).resolve_left apart⟩
  next different => exact .inl ((textLe_eq_true_iff.1 before).resolve_left different)

end SpecNode

namespace PipelineGraph

/-- Any other order that the same nodes allow starts off no earlier than the build order. -/
theorem emitReady_least {remaining : List SpecNode} {emitted : List Text}
    (sorted : remaining.Pairwise (SpecNode.le · · = true)) (unique : (remaining.map SpecNode.hash).Nodup)
    {other : List SpecNode} (same : other.Perm remaining) (first : DependenciesFirst emitted other) :
    other = emitReady remaining emitted ∨ List.Lex SpecNode.Precedes (emitReady remaining emitted) other := by
  fun_induction emitReady remaining emitted generalizing other with
  | case1 remaining emitted stuck =>
    cases other with
    | nil => exact .inl rfl
    | cons node rest =>
      have listed : node ∈ remaining := same.mem_iff.1 List.mem_cons_self
      have ready : isReady emitted node = true := by simpa [isReady] using first.1
      exact absurd ready (List.find?_eq_none.1 stuck node listed)
  | case2 remaining emitted node found _ ih =>
    have member := List.mem_of_find?_eq_some found
    cases other with
    | nil => exact absurd (same.mem_iff.2 member) List.not_mem_nil
    | cons head rest =>
      have listed : head ∈ remaining := same.mem_iff.1 List.mem_cons_self
      have ready : isReady emitted head = true := by simpa [isReady] using first.1
      by_cases equal : head = node
      · subst equal
        have fewer := List.erase_sublist (a := head) (l := remaining)
        have left := List.Perm.cons_inv (same.trans (List.perm_cons_erase listed))
        rcases ih (sorted.sublist fewer) (unique.sublist (fewer.map _)) left first.2 with equal | later
        · exact .inl (congrArg _ equal)
        · exact .inr (.cons later)
      · have before := (find?_least sorted found listed ready).resolve_left equal
        have apart : node.hash ≠ head.hash := fun hashes =>
          equal (List.inj_on_of_nodup_map unique listed member hashes.symm)
        exact .inr (.rel (SpecNode.precedes_of_le before apart))

/-- All nodes, each once and behind its dependencies. -/
structure IsBuildOrder (graph : PipelineGraph) (order : List SpecNode) : Prop where
  all : order.Perm graph.nodes
  first : DependenciesFirst [] order

variable {graph : PipelineGraph} {given : List SpecNode} {roots : List Text}

theorem nodes_roots_of_ofNodes? (made : ofNodes? given roots = .ok graph) :
    graph.nodes = sortBy SpecNode.le (distinctNodes given) ∧ graph.roots = distinct roots := by
  unfold ofNodes? at made
  simp only at made
  split at made
  · cases made
  · obtain rfl := Except.ok.inj made
    exact ⟨rfl, rfl⟩

theorem nodes_of_ofNodes? (made : ofNodes? given roots = .ok graph) :
    graph.nodes = sortBy SpecNode.le (distinctNodes given) :=
  (nodes_roots_of_ofNodes? made).1

theorem roots_of_ofNodes? (made : ofNodes? given roots = .ok graph) : graph.roots = distinct roots :=
  (nodes_roots_of_ofNodes? made).2

theorem sorted_of_ofNodes? (made : ofNodes? given roots = .ok graph) :
    graph.nodes.Pairwise (SpecNode.le · · = true) := by
  rw [nodes_of_ofNodes? made]
  exact SpecNode.le_ordered.sorted _

theorem latest_eq_or_mem (node : SpecNode) (later : List SpecNode) :
    latest node later = node ∨ latest node later ∈ later := by
  unfold latest
  cases found : later.reverse.find? (·.hash = node.hash) with
  | none => exact .inl rfl
  | some other => exact .inr (List.mem_reverse.1 (List.mem_of_find?_eq_some found))

/-- Nothing is lost when nodes with one fingerprint are one node. -/
theorem mem_distinctNodes {nodes : List SpecNode}
    (identified : ∀ left ∈ nodes, ∀ right ∈ nodes, left.hash = right.hash → left = right) {node : SpecNode} :
    node ∈ distinctNodes nodes ↔ node ∈ nodes := by
  induction nodes with
  | nil => exact Iff.rfl
  | cons head rest ih =>
    have listed : latest head rest ∈ head :: rest := by
      rcases latest_eq_or_mem head rest with same | later
      · rw [same]
        exact List.mem_cons_self
      · exact .tail _ later
    have kept : latest head rest = head := identified _ listed _ List.mem_cons_self (hash_latest head rest)
    have fewer := ih fun left first right second => identified left (.tail _ first) right (.tail _ second)
    simp only [distinctNodes, kept, List.mem_cons, List.mem_filter, fewer, decide_eq_true_eq]
    constructor
    · rintro (same | ⟨later, _⟩)
      · exact .inl same
      · exact .inr later
    · rintro (same | later)
      · exact .inl same
      · by_cases equal : node.hash = head.hash
        · exact .inl (identified node (.tail _ later) head List.mem_cons_self equal)
        · exact .inr ⟨later, equal⟩

theorem topologicalOrder_eq_of_mem_iff {again : List SpecNode} {others : List Text} {twin : PipelineGraph}
    (made : ofNodes? given roots = .ok graph) (also : ofNodes? again others = .ok twin)
    (same : ∀ node, node ∈ twin.nodes ↔ node ∈ graph.nodes) : twin.topologicalOrder = graph.topologicalOrder := by
  rw [topologicalOrder_eq, topologicalOrder_eq,
    nodes_eq_of_mem_iff (sorted_of_ofNodes? also) (sorted_of_ofNodes? made) same]

/-- The order of an acyclic graph is a build order, and of all build orders the least
when nodes are compared by name and then by fingerprint. Only the nodes matter to it,
not the list that the graph was made from. -/
theorem topologicalOrder_least (made : ofNodes? given roots = .ok graph) (acyclic : graph.Acyclic) :
    graph.IsBuildOrder graph.topologicalOrder ∧ (graph.topologicalOrder.map SpecNode.hash).Nodup ∧
    (∀ other, graph.IsBuildOrder other →
      other = graph.topologicalOrder ∨ List.Lex SpecNode.Precedes graph.topologicalOrder other) ∧
    (∀ again others twin, ofNodes? again others = .ok twin → (∀ node, node ∈ twin.nodes ↔ node ∈ graph.nodes) →
      twin.topologicalOrder = graph.topologicalOrder) ∧
    ∀ again others twin, ofNodes? again others = .ok twin →
      (∀ left ∈ given, ∀ right ∈ given, left.hash = right.hash → left = right) →
      (∀ node, node ∈ again ↔ node ∈ given) → twin.topologicalOrder = graph.topologicalOrder := by
  have all := acyclic.topologicalOrder_perm
  refine ⟨⟨all, topologicalOrder_dependenciesFirst⟩, (all.map _).nodup_iff.2 graph.hashes_unique, ?_, ?_, ?_⟩
  · intro other order
    rw [topologicalOrder_eq, sortBy_of_sorted (sorted_of_ofNodes? made)]
    exact emitReady_least (sorted_of_ofNodes? made) graph.hashes_unique order.all order.first
  · intro again others twin also same
    exact topologicalOrder_eq_of_mem_iff made also same
  · intro again others twin also identified same
    refine topologicalOrder_eq_of_mem_iff made also fun node => ?_
    rw [nodes_of_ofNodes? also, nodes_of_ofNodes? made, mem_sortBy, mem_sortBy, mem_distinctNodes identified,
      mem_distinctNodes, same]
    intro left first right second
    exact identified left ((same left).1 first) right ((same right).1 second)

namespace ThreeBuilds

def build (name : Text) (dependencies : List Text) : SpecNode :=
  ⟨name, name, "1", Table.empty, none, none, none, false, dependencies⟩

/-- The build with the least name has to wait for another one. -/
def received : List SpecNode := [build "c" [], build "a" ["b"], build "b" []]

def small : PipelineGraph where
  nodes := [build "a" ["b"], build "b" [], build "c" []]
  roots := ["a", "c"]
  hashes_unique := by decide
  dependencies_known := by decide
  roots_known := by decide

theorem made : ofNodes? received ["a", "c"] = .ok small := rfl

theorem madeAgain : ofNodes? received.reverse ["c"] = .ok { small with roots := ["c"], roots_known := by decide } :=
  rfl

theorem acyclic : small.Acyclic := by
  have all : [build "b" [], build "a" ["b"], build "c" []].Perm small.nodes := by decide
  exact acyclic_of_dependenciesFirst all (by simp [DependenciesFirst, build])

theorem isBuildOrder : small.IsBuildOrder [build "c" [], build "b" [], build "a" ["b"]] where
  all := by decide
  first := by simp [DependenciesFirst, build]

theorem order : small.topologicalOrder = [build "b" [], build "a" ["b"], build "c" []] := by
  decide +kernel

end ThreeBuilds

open ThreeBuilds in
theorem topologicalOrder_least_threeBuilds :
    small.Acyclic ∧ small.topologicalOrder = [build "b" [], build "a" ["b"], build "c" []] ∧
    List.Lex SpecNode.Precedes small.topologicalOrder [build "c" [], build "b" [], build "a" ["b"]] ∧
    ∃ twin, ofNodes? received.reverse ["c"] = .ok twin ∧ twin.topologicalOrder = small.topologicalOrder := by
  obtain ⟨_, _, least, _, same⟩ := topologicalOrder_least made acyclic
  refine ⟨acyclic, order, (least _ isBuildOrder).resolve_left ?_, _, madeAgain, ?_⟩
  · rw [order]
    decide
  · exact same _ _ _ madeAgain (by decide) (by simp)

end PipelineGraph

end BuildPipeline
