import BuildPipeline.Command.Generate
import BuildPipeline.Command.Init
import BuildPipeline.Proofs.Outcomes
import BuildPipeline.Proofs.PruningRuns
import BuildPipeline.Proofs.Tables
import BuildPipeline.Proofs.Verifying

/-! The stack that a starter manifest describes: two builds, which pass every check and
are both planned and written, whatever the stack is called and wherever it runs. -/

namespace BuildPipeline

/-- A table lists keys that are no indexes in the order in which they are given. -/
theorem Value.ofEntries_eq {entries : List (Text × Value)} (keys : List Text) (same : entries.map Prod.fst = keys)
    (unique : keys.Nodup) (plain : ∀ key ∈ keys, arrayIndex? key = none) : ofEntries entries = .mapping entries := by
  have assigned : assignEntries [] entries = entries := assignEntries_of_nodup entries [] (by simpa [same] using unique)
  have sorted : entries.Pairwise (fun left right => listedBefore left.1 right.1 = true) := by
    refine List.pairwise_of_forall_mem_list fun left first right second => ?_
    rw [listedBefore, plain left.1 (same ▸ List.mem_map_of_mem first),
      plain right.1 (same ▸ List.mem_map_of_mem second)]
  rw [ofEntries, assigned, listEntries, sortBy_of_sorted sorted]

namespace Document

mutual

/-- What a document reads as, with the members of a mapping as a table lists them. -/
def value : Document → Value
  | .text content => .text content
  | .number count => .number (.ofNat count)
  | .boolean switch => .boolean switch
  | .list items => .list (itemValues items)
  | .mapping members => .ofEntries (memberValues members)

def itemValues : List Document → List Value
  | [] => []
  | item :: rest => item.value :: itemValues rest

def memberValues : List (Text × Document) → List (Text × Value)
  | [] => []
  | (key, member) :: rest => (key, member.value) :: memberValues rest

end

end Document

namespace Starter

def value (name platform : Text) : Value :=
  .mapping
    [("name", .text name),
     ("roots", .list [.text "app"]),
     ("specs", .mapping
       [("app", .mapping
         [("name", .text "app"), ("version", .text "0.1.0"), ("dependencies", .list [.text "zlib"])]),
        ("zlib", .mapping [("name", .text "zlib"), ("version", .text "1.3.1")])]),
     ("ci", .mapping
       [("target", .text platform),
        ("defaults", .mapping [("tags", .list [.text "default"]), ("orderHint", .number (.finite 0))]),
        ("rules", .list []),
        ("pruneUpToDate", .boolean true),
        ("pruneBroken", .boolean true)])]

def config (platform : Text) : CiConfig where
  target := some platform
  defaults := some { tags := some ["default"], orderHint := some (.finite 0) }
  rules := some []
  pruneUpToDate := some true
  pruneBroken := some true

def stack : LinkedStack where
  specs := (value [] []).manifest.specs
  roots := (value [] []).manifest.roots
  dependencies_known := by decide +kernel
  roots_known := by decide +kernel

variable {name platform : Text}

theorem value_starterManifest (name platform : Text) : (starterManifest name platform).value = value name platform := by
  have zero : Number.ofNat 0 = .finite 0 := by decide +kernel
  simp only [starterManifest, Document.ofTexts, List.map_cons, List.map_nil, Document.value, Document.itemValues,
    Document.memberValues, zero]
  rw [Value.ofEntries_eq ["name", "roots", "specs", "ci"] rfl (by decide) (by decide),
    Value.ofEntries_eq ["app", "zlib"] rfl (by decide) (by decide),
    Value.ofEntries_eq ["name", "version", "dependencies"] rfl (by decide) (by decide),
    Value.ofEntries_eq ["name", "version"] rfl (by decide) (by decide),
    Value.ofEntries_eq ["target", "defaults", "rules", "pruneUpToDate", "pruneBroken"] rfl (by decide) (by decide),
    Value.ofEntries_eq ["tags", "orderHint"] rfl (by decide) (by decide)]
  rfl

theorem config_manifest (name platform : Text) : (value name platform).manifest.config = config platform :=
  rfl

theorem link_manifest (name platform : Text) : (value name platform).manifest.link = .ok stack := by
  have clean : (value [] []).manifest.linkFaults = [] := by decide +kernel
  exact dif_pos clean

theorem checkManifest_value (filled : name ≠ []) (named : platform ≠ []) :
    (value name platform).checkManifest = .ok (value name platform).manifest := by
  obtain ⟨_, _, rfl⟩ := List.exists_cons_of_ne_nil filled
  obtain ⟨_, _, rfl⟩ := List.exists_cons_of_ne_nil named
  rfl

/-- A stack without a name has no other fault. -/
theorem issues_unnamed (named : platform ≠ []) :
    (value [] platform).verify.issues = [.malformed ⟨[.key "name"], .emptyText⟩] := by
  obtain ⟨_, _, rfl⟩ := List.exists_cons_of_ne_nil named
  rfl

/-- The graph of the stack, as far as pruning and writing look at it. -/
structure IsGraph (graph : PipelineGraph) : Prop where
  made : stack.graph = .ok graph
  size : graph.nodes.length = 2
  own : ∀ node ∈ graph.nodes, node.external = false
  names : (graph.nodes.map Gitlab.jobName).Nodup
  ids : (graph.nodes.map Github.jobId).Nodup

theorem exists_isGraph : ∃ graph, IsGraph graph := by
  have evaluated : stack.graph.toOption.any (fun graph => decide (graph.nodes.length = 2 ∧
      (∀ node ∈ graph.nodes, node.external = false) ∧ (graph.nodes.map Gitlab.jobName).Nodup ∧
      (graph.nodes.map Github.jobId).Nodup)) = true := by decide +kernel
  obtain ⟨graph, made, facts⟩ := exists_ok_of_any evaluated
  obtain ⟨size, own, names, ids⟩ := of_decide_eq_true facts
  exact ⟨graph, made, size, own, names, ids⟩

theorem verify_value (filled : name ≠ []) (named : platform ≠ []) :
    (value name platform).verify.issues = [] ∧ (value name platform).verify.specCount = some 2 := by
  obtain ⟨graph, starts⟩ := exists_isGraph
  have reached : stack.unreachableIssues = [] := by decide +kernel
  have keys : stack.reachableKeys.length = 2 := by decide +kernel
  have size : graph.size = 2 := starts.size
  have rules : graph.unusedRules (config platform) = [] := rfl
  rw [Value.verify_of_checked (checkManifest_value filled named)]
  simp [StackManifest.verify, link_manifest, starts.made, reached, LinkedStack.duplicateIssues, keys, size,
    config_manifest, rules]

/-- The defaults give any node a tag and an order hint. -/
theorem resolveAttributes_config (platform : Text) (node : SpecNode) :
    node.resolveAttributes (config platform).compileRules =
      .ok ⟨["default"], (node.builtinVariables.merge Table.empty).sorted, 0, false⟩ :=
  rfl

theorem keptNodes_prune {graph : PipelineGraph} (starts : IsGraph graph) {options : PruneOptions}
    (whole : options.affectedOnly = false) : graph.keptNodes (graph.prune options {} []) = graph.nodes :=
  graph.keptNodes_without_signals whole starts.own

/-- No two jobs of a plan share a key when no two builds of the graph do. -/
theorem exists_text_of_plan {pipeline : AnnotatedPipeline} {plan : JobPlan} (all : LinkedStack.PlansAllKept pipeline plan)
    {keyOf : SpecNode → Text} (apart : (pipeline.graph.nodes.map keyOf).Nodup) (finish : JobKeys → Text) :
    ∃ text, (jobKeys (plan.jobs.map PlannedJob.node) keyOf).map finish = .ok text := by
  rcases plan.isWrittenBy_map_jobKeys all.once keyOf finish with written | ⟨owner, node, clash, _⟩
  · exact written
  · have some : ((pipeline.graph.keptNodes pipeline.pruning).map keyOf).Nodup :=
      apart.sublist (List.filter_sublist.map keyOf)
    exact absurd ((all.jobs.map keyOf).nodup_iff.2 some) clash.not_nodup

theorem resolve_builtin {generator : Generator} (resolved : Registry.builtin.resolve platform = .ok generator) :
    platform ≠ [] ∧ (generator = .gitlab ∨ generator = .github) := by
  unfold Registry.resolve at resolved
  split at resolved
  next found =>
    obtain rfl := Except.ok.inj resolved
    have listed := mem_of_lookup found
    simp only [Registry.builtin, List.mem_cons, Prod.mk.injEq, List.not_mem_nil, or_false] at listed
    rcases listed with ⟨rfl, rfl⟩ | ⟨rfl, rfl⟩
    · exact ⟨by decide, .inl rfl⟩
    · exact ⟨by decide, .inr rfl⟩
  · cases resolved

/-- Either platform writes the pipeline. -/
theorem exists_render {graph : PipelineGraph} (starts : IsGraph graph) {options : PruneOptions}
    {attributes : AttributeMap} (made : stack.assemble (config platform) options {} =
      .ok ⟨graph, graph.prune options {} [], attributes⟩) {generator : Generator}
    (resolved : Registry.builtin.resolve platform = .ok generator) (settings : PipelineOptions) :
    ∃ text, generator.render ⟨graph, graph.prune options {} [], attributes⟩ (config platform) settings = .ok text := by
  obtain ⟨plan, all⟩ := LinkedStack.exists_plansAllKept made
  rcases (resolve_builtin resolved).2 with rfl | rfl
  · have written := exists_text_of_plan all starts.names
    simp only [Generator.gitlab, AnnotatedPipeline.renderGitlab_of_plan all.planned, Gitlab.document_eq, map_map]
    exact written _
  · have written := exists_text_of_plan all starts.ids
    simp only [Generator.github, AnnotatedPipeline.renderGithub_of_plan all.planned, Github.document_eq, map_map]
    exact written _

/-- A run without flags settles on the manifest's platform and its usual output path. -/
theorem settle_value (filled : name ≠ []) {generator : Generator}
    (resolved : Registry.builtin.resolve platform = .ok generator) (surroundings : Surroundings) :
    ∃ run, settle .builtin surroundings {} (.holds (value name platform)) = .ok run ∧
      run.manifest = (value name platform).manifest ∧ run.stack = stack ∧ run.generator = generator ∧
      run.target = surroundings.directory.resolve generator.defaultOutputPath ∧ run.options.affectedOnly = false := by
  have loaded := load_holds.2 (checkManifest_value filled (resolve_builtin resolved).1)
  have selected : selectPlatform {} (value name platform).manifest.config = platform := rfl
  obtain ⟨options, warnings, collected, path⟩ : ∃ options warnings,
      collectOptions {} (value name platform).manifest.config generator.defaultOutputPath surroundings.environment =
        .ok (options, warnings) ∧ options.outputPath = generator.defaultOutputPath := ⟨_, _, rfl, rfl⟩
  have required : (requireChanges none options).1.affectedOnly = false ∧
      (requireChanges none options).1.outputPath = generator.defaultOutputPath := by
    unfold requireChanges
    cases asked : options.affectedOnly <;> simp [asked, path]
  simp only [settle, loaded, link_manifest, selected, resolved, collected, Except.mapError, bind, Except.bind, pure,
    Except.pure]
  exact ⟨_, rfl, rfl, rfl, rfl, by rw [required.2], required.1⟩

/-- Both builds are planned, and what is planned can be written. -/
theorem prepare_value (filled : name ≠ []) {generator : Generator}
    (resolved : Registry.builtin.resolve platform = .ok generator) (surroundings : Surroundings) :
    ∃ prepared, (prepare .builtin surroundings {} { manifest := .holds (value name platform) }).outcome = .ok prepared ∧
      prepared.target = surroundings.directory.resolve generator.defaultOutputPath ∧ prepared.jobCount = 2 ∧
      ∃ text, prepared.render = .ok text := by
  obtain ⟨run, settled, manifest, linked, chosen, target, whole⟩ := settle_value filled resolved surroundings
  obtain ⟨graph, starts⟩ := exists_isGraph
  obtain ⟨attributes, assembled⟩ := LinkedStack.exists_assemble starts.made
    (fun node _ => ⟨_, resolveAttributes_config platform node⟩) run.options.toPruneOptions {}
  obtain ⟨text, rendered⟩ := exists_render starts assembled resolved run.options
  have finished : run.finish { manifest := .holds (value name platform) } none =
      .ok { run with pipeline := ⟨graph, graph.prune run.options.toPruneOptions {} [], attributes⟩ } := by
    simp only [SettledRun.finish, gatherSignals, gatherList, Option.map_none, bind, Except.bind, pure, Except.pure,
      linked, manifest, config_manifest, assembled, Except.mapError]
  refine ⟨{ run with pipeline := ⟨graph, graph.prune run.options.toPruneOptions {} [], attributes⟩ }, ?_, target, ?_, text, ?_⟩
  · simp only [prepare, settled, finished]
  · rw [PreparedPipeline.jobCount, keptNodes_prune starts whole]
    exact starts.size
  · rw [PreparedPipeline.render, chosen, manifest, config_manifest]
    exact rendered

end Starter

end BuildPipeline
