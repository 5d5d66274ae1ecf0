import BuildPipeline.Proofs.Precedence
import BuildPipeline.Proofs.Verifying

/-! Rules that match no build of a stack. Only the order of declaration decides
between equally constrained rules, never the places themselves, so a rule that is
left out moves the others up without a trace in any job. -/

namespace BuildPipeline

namespace CiConfig

/-- Without the rules at the given places. Those behind them move up. -/
def withoutRules (config : CiConfig) (dropped : List Nat) : CiConfig :=
  { config with
    rules := config.rules.map fun rules => (rules.zipIdx.filter fun entry => entry.2 ∉ dropped).map Prod.fst }

/-- What is set for a node in the order of declaration, with the constraints counted. -/
def contributions (config : CiConfig) (node : SpecNode) : List (Nat × RuleAttributes) :=
  let matching := (config.rules.getD []).filter fun rule => node.satisfies (rule.predicate.getD {})
  config.defaults.toList.map (0, ·) ++
    matching.map fun rule => ((rule.predicate.getD {}).constraintCount, rule.attributes)

theorem ascending_declaredRules (config : CiConfig) : config.declaredRules.Pairwise (·.index < ·.index) := by
  have places : (config.rules.getD []).zipIdx.Pairwise (·.2 < ·.2) := by
    apply List.pairwise_map.1
    rw [List.zipIdx_map_snd]
    exact List.pairwise_lt_range'
  exact List.pairwise_map.2 (places.imp Int.ofNat_lt.2)

theorem ascending_rules (config : CiConfig) :
    (config.defaultRules ++ config.declaredRules).Pairwise (·.index < ·.index) := by
  refine List.pairwise_append.2 ⟨?_, config.ascending_declaredRules, ?_⟩
  · unfold defaultRules
    cases config.defaults <;> simp
  · intro first default second declared
    simp only [defaultRules, Option.mem_toList, Option.map_eq_some_iff] at default
    obtain ⟨attributes, _, rfl⟩ := default
    obtain ⟨entry, _, rfl⟩ := List.mem_map.1 declared
    have below : (-1 : Int) < 0 := by decide
    exact below.trans_le (Int.natCast_nonneg entry.2)

/-- The places of rules break ties as a stable sort by constraints alone does. -/
theorem compileRules_eq (config : CiConfig) :
    config.compileRules =
      sortBy (fun left right => decide (left.specificity ≤ right.specificity))
        (config.defaultRules ++ config.declaredRules) := by
  refine sortBy_congr (config.ascending_rules.imp fun {left right} before => ?_)
  rw [Bool.eq_iff_iff]
  simp only [AttributeRule.precedenceLe, Bool.or_eq_true, Bool.and_eq_true, decide_eq_true_eq, beq_iff_eq]
  omega

theorem map_matching_rules (config : CiConfig) (node : SpecNode) :
    ((config.defaultRules ++ config.declaredRules).filter fun rule => node.satisfies rule.predicate).map
      (fun rule => (rule.specificity, rule.attributes)) = config.contributions node := by
  have free : node.satisfies {} = true := rfl
  rw [List.filter_append, List.map_append, contributions]
  congr 1
  · unfold defaultRules
    cases config.defaults <;> simp [free]
  · rw [declaredRules, List.filter_map, List.map_map]
    conv_rhs => rw [← List.zipIdx_map_fst 0 (config.rules.getD []), List.filter_map, List.map_map]
    rfl

end CiConfig

/-- A node's attributes, from what is set for it in the order of declaration. -/
theorem SpecNode.resolveAttributes_compileRules (node : SpecNode) (config : CiConfig) :
    node.resolveAttributes config.compileRules =
      ((sortBy (fun left right : Nat × RuleAttributes => decide (left.1 ≤ right.1)) (config.contributions node)).foldl
        (fun draft entry => draft.apply entry.2) ({ vars := node.builtinVariables } : AttributeDraft)).finish node := by
  have sorted : sortRules config.compileRules = config.compileRules :=
    sortBy_of_sorted (AttributeRule.precedenceLe_ordered.sorted _)
  have ordered := natLe_ordered.onKey AttributeRule.specificity
  rw [resolveAttributes, matchingRules, sorted, config.compileRules_eq, filter_sortBy ordered,
    ← config.map_matching_rules, sortBy_map (fun rule : AttributeRule => (rule.specificity, rule.attributes))
      fun _ _ => rfl, List.foldl_map]

namespace CiConfig

variable {config : CiConfig} {dropped : List Nat} {nodes : List SpecNode}

/-- The rules at the given places match none of the nodes. -/
def Idle (config : CiConfig) (dropped : List Nat) (nodes : List SpecNode) : Prop :=
  ∀ index ∈ dropped, ∀ rule, (config.rules.getD [])[index]? = some rule →
    ∀ node ∈ nodes, node.satisfies (rule.predicate.getD {}) = false

theorem Idle.contributions_eq (idle : config.Idle dropped nodes) {node : SpecNode} (listed : node ∈ nodes) :
    (config.withoutRules dropped).contributions node = config.contributions node := by
  have same : (config.withoutRules dropped).rules.getD [] =
      ((config.rules.getD []).zipIdx.filter fun entry => entry.2 ∉ dropped).map Prod.fst := by
    unfold withoutRules
    cases config.rules <;> rfl
  have matching : ((config.withoutRules dropped).rules.getD []).filter (fun rule => node.satisfies (rule.predicate.getD {})) =
      (config.rules.getD []).filter fun rule => node.satisfies (rule.predicate.getD {}) := by
    rw [same, List.filter_map, List.filter_filter]
    conv_rhs => rw [← List.zipIdx_map_fst 0 (config.rules.getD []), List.filter_map]
    congr 1
    refine List.filter_congr fun entry place => ?_
    by_cases gone : entry.2 ∈ dropped
    · have silent := idle entry.2 gone entry.1 (List.mem_zipIdx_iff_getElem?.1 place) node listed
      simp [silent]
    · simp [gone]
  simp only [contributions, matching]
  rfl

theorem Idle.resolveAttributes_eq (idle : config.Idle dropped nodes) {node : SpecNode} (listed : node ∈ nodes) :
    node.resolveAttributes (config.withoutRules dropped).compileRules =
      node.resolveAttributes config.compileRules := by
  rw [node.resolveAttributes_compileRules, node.resolveAttributes_compileRules, idle.contributions_eq listed]

end CiConfig

theorem PipelineGraph.resolveAttributes_congr {graph : PipelineGraph} {config other : CiConfig}
    (same : ∀ node ∈ graph.nodes, node.resolveAttributes config.compileRules =
      node.resolveAttributes other.compileRules) (pruning : Pruning) :
    graph.resolveAttributes pruning config = graph.resolveAttributes pruning other := by
  refine mapM_congr fun node kept => ?_
  have listed : node ∈ graph.nodes := List.mem_of_mem_filter (mem_sortBy.1 kept)
  rw [same node listed]

/-- Resolution asks only the nodes that are kept, and those are among the idle ones. -/
theorem CiConfig.Idle.assemble_eq {stack : LinkedStack} {graph : PipelineGraph} {config : CiConfig}
    {dropped : List Nat} (idle : config.Idle dropped graph.nodes) (made : stack.graph = .ok graph)
    (options : PruneOptions) (signals : PruneSignals) :
    stack.assemble (config.withoutRules dropped) options signals = stack.assemble config options signals := by
  rw [LinkedStack.assemble_of_graph made, LinkedStack.assemble_of_graph made,
    PipelineGraph.resolveAttributes_congr fun _ listed => idle.resolveAttributes_eq listed]

namespace AnnotatedPipeline

/-! The platforms read nothing of the rules but what the pipeline already holds. -/

theorem renderGitlab_withoutRules (pipeline : AnnotatedPipeline) (config : CiConfig) (dropped : List Nat)
    (settings : PipelineOptions) :
    pipeline.renderGitlab (config.withoutRules dropped) settings = pipeline.renderGitlab config settings := rfl

theorem renderGithub_withoutRules (pipeline : AnnotatedPipeline) (config : CiConfig) (dropped : List Nat)
    (settings : PipelineOptions) :
    pipeline.renderGithub (config.withoutRules dropped) settings = pipeline.renderGithub config settings := rfl

end AnnotatedPipeline

namespace StackManifest

variable {manifest : StackManifest}

def withoutRules (manifest : StackManifest) (dropped : List Nat) : StackManifest :=
  { manifest with ci := manifest.ci.map (·.withoutRules dropped) }

theorem config_withoutRules (manifest : StackManifest) (dropped : List Nat) :
    (manifest.withoutRules dropped).config = manifest.config.withoutRules dropped := by
  unfold withoutRules config
  cases manifest.ci <;> rfl

theorem link_withoutRules (manifest : StackManifest) (dropped : List Nat) :
    (manifest.withoutRules dropped).link = manifest.link := rfl

theorem idle_of_unusedRule {stack : LinkedStack} {graph : PipelineGraph} {dropped : List Nat}
    (linked : manifest.link = .ok stack) (made : stack.graph = .ok graph)
    (unused : ∀ index ∈ dropped, Issue.unusedRule index ∈ manifest.verify.issues) :
    manifest.config.Idle dropped graph.nodes := by
  intro index listed rule place
  have found := unused index listed
  rw [verify_of_graph linked made] at found
  rcases List.mem_append.1 found with found | found
  · rcases List.mem_append.1 found with unreachable | duplicate
    · obtain ⟨_, _, impossible⟩ := List.mem_map.1 unreachable
      cases impossible
    · obtain ⟨_, _, impossible⟩ := LinkedStack.mem_duplicateIssues duplicate
      cases impossible
  · obtain ⟨_, other, declared, idle, same⟩ := PipelineGraph.mem_unusedRules.1 found
    obtain rfl := Issue.unusedRule.inj same
    obtain rfl := Option.some.inj (place.symm.trans declared)
    exact idle

/-- Rules that a passed verification reports as unused can be left out, any of them
together: every run comes to the same jobs or stops with the same error. -/
theorem unused_rules_are_dead (passed : manifest.verify.passed = true) (dropped : List Nat)
    (unused : ∀ index ∈ dropped, Issue.unusedRule index ∈ manifest.verify.issues) :
    let other := manifest.withoutRules dropped
    ∃ stack, manifest.link = .ok stack ∧ other.link = .ok stack ∧ ∀ options signals,
      stack.assemble other.config options signals = stack.assemble manifest.config options signals ∧
      ∀ settings,
        (stack.assemble other.config options signals >>= (·.renderGitlab other.config settings)) =
          (stack.assemble manifest.config options signals >>= (·.renderGitlab manifest.config settings)) ∧
        (stack.assemble other.config options signals >>= (·.renderGithub other.config settings)) =
          (stack.assemble manifest.config options signals >>= (·.renderGithub manifest.config settings)) := by
  obtain ⟨stack, graph, linked, made⟩ := verify_passed_iff.1 passed
  have idle := idle_of_unusedRule linked made unused
  refine ⟨stack, linked, (manifest.link_withoutRules dropped).trans linked, fun options signals => ?_⟩
  have same := idle.assemble_eq made options signals
  simp only [config_withoutRules, same, AnnotatedPipeline.renderGitlab_withoutRules,
    AnnotatedPipeline.renderGithub_withoutRules, implies_true, and_self]

end StackManifest

namespace Idling

/-- Of four rules the first and the third match no build. The others match all of
them, so the later one sets the tags. -/
def manifest : StackManifest where
  name := "stack"
  roots := ["a"]
  specs := ⟨[("a", ⟨{ name := "app", version := "1" }, ["t"]⟩), ("t", ⟨{ name := "tool", version := "1" }, []⟩)],
    by decide +kernel⟩
  ci := some
    { defaults := some { orderHint := some (.ofNat 1) }
      rules := some
        [{ predicate := some { package := some "gone" }, attributes := { tags := some ["old"] } },
         { attributes := { tags := some ["small"] } },
         { predicate := some { version := some "2" }, attributes := { orderHint := some (.ofNat 3) } },
         { attributes := { tags := some ["big"] } }] }

end Idling

theorem StackManifest.unused_rules_are_dead_idling :
    Idling.manifest.verify.passed = true ∧
    (Idling.manifest.withoutRules [0, 2]).config.rules.map List.length = some 2 ∧
    ∃ stack, Idling.manifest.link = .ok stack ∧ ∀ options signals,
      stack.assemble (Idling.manifest.withoutRules [0, 2]).config options signals =
        stack.assemble Idling.manifest.config options signals := by
  have passed : Idling.manifest.verify.passed = true := by decide +kernel
  have unused : ∀ index ∈ [0, 2], Issue.unusedRule index ∈ Idling.manifest.verify.issues := by decide +kernel
  obtain ⟨stack, linked, _, same⟩ := StackManifest.unused_rules_are_dead passed [0, 2] unused
  exact ⟨passed, by decide +kernel, stack, linked, fun options signals => (same options signals).1⟩

end BuildPipeline
