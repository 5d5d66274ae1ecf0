import BuildPipeline.Proofs.DeadRules

/-! Resolving the attributes of a whole graph. Only the kept nodes and the rules that match
one of them take part, and of several nodes that lack something the one with the least
fingerprint is reported. -/

namespace BuildPipeline

/-- The declared rules that match one of the nodes. -/
def CiConfig.rulesFor (config : CiConfig) (nodes : List SpecNode) : List RuleConfig :=
  (config.rules.getD []).filter fun rule => nodes.any fun node => node.satisfies (rule.predicate.getD {})

namespace PipelineGraph

variable {graph other : PipelineGraph} {pruning others : Pruning} {config : CiConfig}

/-- What resolution makes of the kept nodes. -/
structure ResolvesKept (graph : PipelineGraph) (pruning : Pruning) (config : CiConfig) : Prop where
  succeeds : (∃ attributes, graph.resolveAttributes pruning config = .ok attributes) ↔
    ∀ node ∈ graph.keptNodes pruning, ∃ own, node.resolveAttributes config.compileRules = .ok own
  sorted : ∀ attributes, graph.resolveAttributes pruning config = .ok attributes →
    attributes.Pairwise fun left right => textLe left.1 right.1 = true ∧ left.1 ≠ right.1
  entries : ∀ attributes, graph.resolveAttributes pruning config = .ok attributes → ∀ hash own,
    (hash, own) ∈ attributes ↔ ∃ node ∈ graph.keptNodes pruning, node.hash = hash ∧
      node.resolveAttributes config.compileRules = .ok own
  fails : ∀ failure, graph.resolveAttributes pruning config = .error failure ↔
    ∃ node ∈ graph.keptNodes pruning, node.resolveAttributes config.compileRules = .error failure ∧
      ∀ other ∈ graph.keptNodes pruning, (∃ lack, other.resolveAttributes config.compileRules = .error lack) →
        textLe node.hash other.hash = true
  same_kept : ∀ others : Pruning, (∀ node ∈ graph.nodes, others.isKept node.hash = pruning.isKept node.hash) →
    graph.resolveAttributes others config = graph.resolveAttributes pruning config
  undisturbed : ∀ (other : PipelineGraph) (others : Pruning) (changed : CiConfig),
    (∀ node, node ∈ other.keptNodes others ↔ node ∈ graph.keptNodes pruning) →
    changed.defaults = config.defaults →
    changed.rulesFor (graph.keptNodes pruning) = config.rulesFor (graph.keptNodes pruning) →
    other.resolveAttributes others changed = graph.resolveAttributes pruning config

/-- One kept node with its attributes. -/
def resolveEntry (config : CiConfig) (node : SpecNode) : Except PipelineError (Text × JobAttributes) :=
  (node.resolveAttributes config.compileRules).map (node.hash, ·)

theorem resolveAttributes_eq_mapM (graph : PipelineGraph) (pruning : Pruning) (config : CiConfig) :
    graph.resolveAttributes pruning config = (graph.keptByHash pruning).mapM (resolveEntry config) := by
  refine mapM_congr fun node _ => ?_
  unfold resolveEntry
  cases node.resolveAttributes config.compileRules <;> rfl

theorem resolveEntry_eq_error_iff {node : SpecNode} {failure : PipelineError} :
    resolveEntry config node = .error failure ↔ node.resolveAttributes config.compileRules = .error failure := by
  unfold resolveEntry
  cases node.resolveAttributes config.compileRules <;> simp [Except.map]

theorem exists_resolveEntry_iff {node : SpecNode} : (∃ entry, resolveEntry config node = .ok entry) ↔
    ∃ own, node.resolveAttributes config.compileRules = .ok own := by
  unfold resolveEntry
  cases node.resolveAttributes config.compileRules <;> simp [Except.map]

theorem nodup_hashes_keptNodes (graph : PipelineGraph) (pruning : Pruning) :
    ((graph.keptNodes pruning).map SpecNode.hash).Nodup :=
  graph.hashes_unique.sublist (List.filter_sublist.map SpecNode.hash)

/-- Kept nodes stand in the strict order of their fingerprints. -/
theorem sorted_keptByHash (graph : PipelineGraph) (pruning : Pruning) :
    (graph.keptByHash pruning).Pairwise fun left right =>
      textLe left.hash right.hash = true ∧ left.hash ≠ right.hash := by
  have unique : ((graph.keptByHash pruning).map SpecNode.hash).Nodup :=
    ((sortBy_perm _ _).map SpecNode.hash).nodup_iff.2 (graph.nodup_hashes_keptNodes pruning)
  exact ((textLe_ordered.onKey SpecNode.hash).sorted _).and (List.pairwise_map.1 unique)

theorem keptByHash_congr (same : ∀ node, node ∈ other.keptNodes others ↔ node ∈ graph.keptNodes pruning) :
    other.keptByHash others = graph.keptByHash pruning := by
  have once (graph : PipelineGraph) (pruning : Pruning) : (graph.keptNodes pruning).Nodup :=
    (graph.nodup_hashes_keptNodes pruning).of_map _
  refine sortBy_eq_of_perm (textLe_ordered.onKey SpecNode.hash) ?_ (perm_of_mem_iff (once _ _) (once _ _) same)
  intro left first right second forward backward
  have same_hash := textLe_antisymm _ _ forward backward
  exact List.inj_on_of_nodup_map (other.nodup_hashes_keptNodes others) first second same_hash

end PipelineGraph

theorem CiConfig.contributions_rulesFor {config changed : CiConfig} {nodes : List SpecNode}
    (defaults : changed.defaults = config.defaults) (rules : changed.rulesFor nodes = config.rulesFor nodes)
    {node : SpecNode} (listed : node ∈ nodes) : changed.contributions node = config.contributions node := by
  have own (config : CiConfig) : (config.rules.getD []).filter (fun rule => node.satisfies (rule.predicate.getD {})) =
      (config.rulesFor nodes).filter fun rule => node.satisfies (rule.predicate.getD {}) := by
    rw [rulesFor, List.filter_filter]
    refine List.filter_congr fun rule _ => ?_
    cases matching : node.satisfies (rule.predicate.getD {}) with
    | false => rfl
    | true => exact (List.any_eq_true.2 ⟨node, listed, matching⟩).symm
  simp only [contributions, defaults, own, rules]

namespace PipelineGraph

variable {graph other : PipelineGraph} {pruning others : Pruning} {config changed : CiConfig}

theorem mem_keptByHash {node : SpecNode} : node ∈ graph.keptByHash pruning ↔ node ∈ graph.keptNodes pruning :=
  mem_sortBy

/-- Pruned nodes and the rules that match only those make no difference. -/
theorem resolveAttributes_undisturbed (same : ∀ node, node ∈ other.keptNodes others ↔ node ∈ graph.keptNodes pruning)
    (defaults : changed.defaults = config.defaults)
    (rules : changed.rulesFor (graph.keptNodes pruning) = config.rulesFor (graph.keptNodes pruning)) :
    other.resolveAttributes others changed = graph.resolveAttributes pruning config := by
  rw [resolveAttributes_eq_mapM, resolveAttributes_eq_mapM, keptByHash_congr same]
  refine mapM_congr fun node listed => ?_
  rw [resolveEntry, resolveEntry, node.resolveAttributes_compileRules, node.resolveAttributes_compileRules,
    CiConfig.contributions_rulesFor defaults rules (mem_keptByHash.1 listed)]

section Resolved

variable {attributes : AttributeMap} (resolved : graph.resolveAttributes pruning config = .ok attributes)

include resolved

theorem sorted_attributes : attributes.Pairwise fun left right => textLe left.1 right.1 = true ∧ left.1 ≠ right.1 := by
  have keys := (AnnotatedPipeline.attributesOf_of_resolveAttributes resolved).keys
  have ordered : (attributes.map Prod.fst).Pairwise fun left right => textLe left right = true ∧ left ≠ right := by
    rw [keys]
    exact List.pairwise_map.2 (graph.sorted_keptByHash pruning)
  exact List.pairwise_map.1 ordered

theorem mem_attributes_iff {hash : Text} {own : JobAttributes} : (hash, own) ∈ attributes ↔
    ∃ node ∈ graph.keptNodes pruning, node.hash = hash ∧ node.resolveAttributes config.compileRules = .ok own := by
  have entries := AnnotatedPipeline.attributesOf_of_resolveAttributes resolved
  refine ⟨entries.exists_node, ?_⟩
  rintro ⟨node, listed, rfl, found⟩
  have keyed : node.hash ∈ attributes.map Prod.fst := by
    rw [entries.keys]
    exact List.mem_map_of_mem (mem_keptByHash.2 listed)
  obtain ⟨⟨hash, result⟩, entered, same⟩ := List.mem_map.1 keyed
  obtain rfl : hash = node.hash := same
  obtain ⟨other, also, alike, resolves⟩ := entries.exists_node entered
  obtain rfl := List.inj_on_of_nodup_map (graph.nodup_hashes_keptNodes pruning) also listed alike
  rwa [← Except.ok.inj (resolves.symm.trans found)]

end Resolved

/-- In the order of fingerprints, the first node that lacks something is the least one. -/
theorem first_iff_least {node : SpecNode} {lacks : SpecNode → Prop} :
    (∃ before after, graph.keptByHash pruning = before ++ node :: after ∧ ∀ earlier ∈ before, ¬ lacks earlier) ↔
      node ∈ graph.keptNodes pruning ∧
        ∀ other ∈ graph.keptNodes pruning, lacks other → textLe node.hash other.hash = true := by
  have sorted := graph.sorted_keptByHash pruning
  constructor
  case mp =>
    rintro ⟨before, after, split, complete⟩
    refine ⟨mem_keptByHash.1 (by simp [split]), fun other listed lacking => ?_⟩
    have place : other ∈ before ∨ other = node ∨ other ∈ after := by
      simpa [split] using mem_keptByHash.2 listed
    rcases place with earlier | rfl | later
    · exact absurd lacking (complete other earlier)
    · exact or_self_iff.1 (textLe_total _ _)
    · rw [split] at sorted
      exact ((List.pairwise_cons.1 (List.pairwise_append.1 sorted).2.1).1 other later).1
  case mpr =>
    rintro ⟨listed, least⟩
    obtain ⟨before, after, split⟩ := List.append_of_mem (mem_keptByHash.2 listed)
    refine ⟨before, after, split, fun earlier first lacking => ?_⟩
    rw [split] at sorted
    have smaller := (List.pairwise_append.1 sorted).2.2 earlier first node List.mem_cons_self
    have larger := least earlier (mem_keptByHash.1 (by simp [split, first])) lacking
    exact smaller.2 (textLe_antisymm _ _ smaller.1 larger)

theorem resolveAttributes_eq_error_iff {failure : PipelineError} :
    graph.resolveAttributes pruning config = .error failure ↔
      ∃ node ∈ graph.keptNodes pruning, node.resolveAttributes config.compileRules = .error failure ∧
        ∀ other ∈ graph.keptNodes pruning, (∃ lack, other.resolveAttributes config.compileRules = .error lack) →
          textLe node.hash other.hash = true := by
  have passes (node : SpecNode) : (∃ entry, resolveEntry config node = .ok entry) ↔
      ¬ ∃ lack, node.resolveAttributes config.compileRules = .error lack := by
    rw [exists_resolveEntry_iff]
    cases node.resolveAttributes config.compileRules <;> simp
  rw [resolveAttributes_eq_mapM, mapM_eq_error_iff]
  simp only [passes, resolveEntry_eq_error_iff]
  constructor
  case mp =>
    rintro ⟨before, node, after, split, complete, failed⟩
    obtain ⟨listed, least⟩ := first_iff_least.1 ⟨before, after, split, complete⟩
    exact ⟨node, listed, failed, least⟩
  case mpr =>
    rintro ⟨node, listed, failed, least⟩
    obtain ⟨before, after, split, complete⟩ := first_iff_least.2 ⟨listed, least⟩
    exact ⟨before, node, after, split, complete, failed⟩

/-- Resolution asks each kept node by itself, in the order of their fingerprints, and
nothing that only pruned nodes have to do with can change what it comes to. -/
theorem resolves_kept_in_order (graph : PipelineGraph) (pruning : Pruning) (config : CiConfig) :
    graph.ResolvesKept pruning config := by
  constructor
  case succeeds =>
    rw [resolveAttributes_eq_mapM, exists_mapM_iff]
    simp only [mem_keptByHash, exists_resolveEntry_iff]
  case sorted => exact fun _ resolved => sorted_attributes resolved
  case entries => exact fun _ resolved _ _ => mem_attributes_iff resolved
  case fails => exact fun _ => resolveAttributes_eq_error_iff
  case same_kept =>
    intro others same
    refine resolveAttributes_undisturbed (fun node => ?_) rfl rfl
    simp only [keptNodes, List.mem_filter]
    exact and_congr_right fun listed => by rw [same node listed]
  case undisturbed => exact fun _ _ _ same defaults rules => resolveAttributes_undisturbed same defaults rules

end PipelineGraph

end BuildPipeline
