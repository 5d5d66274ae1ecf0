import BuildPipeline.Preparation
import BuildPipeline.Proofs.Assembling
import BuildPipeline.Proofs.Cycles
import BuildPipeline.Verification.Basic

/-! A manifest passes verification just when a run can be prepared from it, as far
as the manifest alone decides. What is merely of no use in it stops neither. -/

namespace BuildPipeline

/-- Brought about by what the manifest says, whatever the run is told beyond it. -/
def Failure.IsOfManifest : Failure → Prop
  | .manifest _ => True
  | .links _ => True
  | .pipeline (.cyclicDependency _) => True
  | .pipeline (.unknownDependency _ _ _) => True
  | .pipeline (.unknownRoot _) => True
  | _ => False

namespace Issue

/-- An error about a key that is not in the table. -/
def isReference (issue : Issue) : Bool :=
  issue.severity = .error && (issue.code = "DEPENDENCY-UNKNOWN" || issue.code = "ROOT-UNKNOWN")

/-- Code, place and message, as they are reported. -/
def finding (issue : Issue) : Text × Option Text × Text :=
  (issue.code, issue.path?, issue.message)

theorem isReference_dangling (fault : LinkFault) : (Issue.dangling fault).isReference = true := by
  cases fault <;> rfl

theorem isReference_cycle (error : PipelineError) : (Issue.cycle error).isReference = false := rfl

theorem isReference_of_severity_ne {issue : Issue} (harmless : issue.severity ≠ .error) :
    issue.isReference = false := by
  simp [isReference, harmless]

end Issue

namespace StackManifest

variable {manifest : StackManifest} {stack : LinkedStack} {graph : PipelineGraph}

/-- Each dependency that an entry lists, after the key of the entry, in table order. -/
def dependencyOccurrences (manifest : StackManifest) : List (Text × Text) :=
  manifest.specs.entries.flatMap fun entry => entry.2.dependencies.map (entry.1, ·)

/-- What is to be said of dangling references: of each occurrence once, dependencies
before roots. -/
def danglingFindings (manifest : StackManifest) : List (Text × Option Text × Text) :=
  ((manifest.dependencyOccurrences.filter fun occurrence => occurrence.2 ∉ manifest.specs.keys).map
    fun occurrence => (Text.ofString "DEPENDENCY-UNKNOWN",
      some (Text.ofString "specs." ++ occurrence.1 ++ ".dependencies"),
      Text.ofString "Unknown dependency: " ++ occurrence.2)) ++
  (manifest.roots.filter (· ∉ manifest.specs.keys)).map
    fun key => (Text.ofString "ROOT-UNKNOWN", some (Text.ofString "roots"),
      Text.ofString "Unknown root spec: " ++ key)

theorem findings_linkFaults (manifest : StackManifest) :
    manifest.linkFaults.map (fun fault => (Issue.dangling fault).finding) = manifest.danglingFindings := by
  rw [linkFaults, List.map_append, unknownDependencies, unknownRoots, danglingFindings, dependencyOccurrences,
    List.map_flatMap, List.filter_flatMap, List.map_flatMap]
  congr 1
  · refine List.flatMap_congr fun entry _ => ?_
    rw [List.filter_map, List.map_map, List.map_map]
    rfl
  · rw [List.map_map]
    rfl

theorem link_eq_ok (linked : manifest.link = .ok stack) : manifest.linkFaults = [] := by
  unfold link at linked
  split at linked
  next clean => exact clean
  next => cases linked

theorem link_eq_error {faults : List LinkFault} (stopped : manifest.link = .error faults) :
    faults = manifest.linkFaults ∧ faults ≠ [] := by
  unfold link at stopped
  split at stopped
  next => cases stopped
  next dangling =>
    obtain rfl := Except.error.inj stopped
    exact ⟨rfl, dangling⟩

theorem verify_of_graph (linked : manifest.link = .ok stack) (made : stack.graph = .ok graph) :
    manifest.verify.issues =
      stack.unreachableIssues ++ stack.duplicateIssues graph ++ graph.unusedRules manifest.config := by
  simp only [verify, linked, made]

end StackManifest

/-- A rule is reported at its place when none of the nodes satisfies it. -/
theorem PipelineGraph.mem_unusedRules {graph : PipelineGraph} {config : CiConfig} {issue : Issue} :
    issue ∈ graph.unusedRules config ↔ ∃ index rule, (config.rules.getD [])[index]? = some rule ∧
      (∀ node ∈ graph.nodes, node.satisfies (rule.predicate.getD {}) = false) ∧ issue = .unusedRule index := by
  simp only [unusedRules, List.mem_filterMap, Prod.exists, List.mem_zipIdx_iff_getElem?,
    Option.ite_none_left_eq_some, Option.some.injEq, List.any_eq_true, not_exists, not_and, Bool.not_eq_true]
  constructor
  · rintro ⟨rule, index, listed, idle, rfl⟩
    exact ⟨index, rule, listed, idle, rfl⟩
  · rintro ⟨index, rule, listed, idle, rfl⟩
    exact ⟨rule, index, listed, idle, rfl⟩

theorem LinkedStack.mem_duplicateIssues {stack : LinkedStack} {graph : PipelineGraph} {issue : Issue}
    (found : issue ∈ stack.duplicateIssues graph) : ∃ count reachable, issue = .duplicates count reachable := by
  simp only [duplicateIssues, List.mem_ite_nil_right, List.mem_singleton] at found
  exact ⟨_, _, found.2⟩

namespace StackManifest

variable {manifest : StackManifest} {stack : LinkedStack} {graph : PipelineGraph}

/-- Once there is a graph nothing that is found is an error. -/
theorem severity_ne_error (linked : manifest.link = .ok stack) (made : stack.graph = .ok graph) :
    ∀ issue ∈ manifest.verify.issues, issue.severity ≠ .error := by
  rw [verify_of_graph linked made]
  intro issue found
  rcases List.mem_append.1 found with found | unused
  · rcases List.mem_append.1 found with unreachable | duplicate
    · obtain ⟨key, _, rfl⟩ := List.mem_map.1 unreachable
      exact nofun
    · obtain ⟨count, reachable, rfl⟩ := LinkedStack.mem_duplicateIssues duplicate
      exact nofun
  · obtain ⟨index, _, _, _, rfl⟩ := PipelineGraph.mem_unusedRules.1 unused
    exact nofun

end StackManifest

theorem Verification.passed_iff {verification : Verification} :
    verification.passed = true ↔ ∀ issue ∈ verification.issues, issue.severity ≠ .error := by
  simp [passed]

namespace StackManifest

variable {manifest : StackManifest}

/-- A manifest whose references all lead somewhere and from which a graph can be made. -/
def Builds (manifest : StackManifest) : Prop :=
  ∃ stack graph, manifest.link = .ok stack ∧ stack.graph = .ok graph

theorem verify_passed_iff : manifest.verify.passed = true ↔ manifest.Builds := by
  rw [Verification.passed_iff]
  constructor
  · intro harmless
    cases linked : manifest.link with
    | error faults =>
      obtain ⟨fault, listed⟩ := List.exists_mem_of_ne_nil faults (link_eq_error linked).2
      refine absurd ?_ (harmless (.dangling fault) ?_)
      · rfl
      · simpa only [verify, linked] using List.mem_map_of_mem listed
    | ok stack =>
      cases made : stack.graph with
      | error failure => exact absurd rfl (harmless (.cycle failure) (by simp [verify, linked, made]))
      | ok graph => exact ⟨stack, graph, linked, made⟩
  · rintro ⟨stack, graph, linked, made⟩
    exact severity_ne_error linked made

/-- The findings on dangling references, whatever else is found. -/
theorem findings_verify (manifest : StackManifest) :
    (manifest.verify.issues.filter Issue.isReference).map Issue.finding = manifest.danglingFindings := by
  rw [← findings_linkFaults]
  cases linked : manifest.link with
  | error faults =>
    obtain ⟨rfl, _⟩ := link_eq_error linked
    have all : (manifest.linkFaults.map Issue.dangling).filter Issue.isReference =
        manifest.linkFaults.map Issue.dangling := by
      refine List.filter_eq_self.2 fun issue found => ?_
      obtain ⟨fault, _, rfl⟩ := List.mem_map.1 found
      exact Issue.isReference_dangling fault
    simp only [verify, linked, all, List.map_map, Function.comp_def]
  | ok stack =>
    have none : manifest.verify.issues.filter Issue.isReference = [] := by
      refine List.filter_eq_nil_iff.2 fun issue found => ?_
      rw [Bool.not_eq_true]
      cases made : stack.graph with
      | error failure =>
        simp only [verify, linked, made, List.mem_singleton] at found
        rw [found, Issue.isReference_cycle]
      | ok graph => exact Issue.isReference_of_severity_ne (severity_ne_error linked made issue found)
    rw [none, link_eq_ok linked]
    rfl

end StackManifest

namespace Value

variable {value : Value} {manifest : StackManifest}

theorem verify_of_checked (checked : value.checkManifest = .ok manifest) : value.verify = manifest.verify := by
  cases value with
  | mapping members => simp only [verify, verify.checked, checked]
  | list items => simp only [verify, verify.checked, checked]
  | _ => cases checked

theorem verify_of_malformed {faults : List Fault} (refused : value.checkManifest = .error faults) :
    value.verify.passed = false := by
  have some : faults ≠ [] := by
    unfold checkManifest at refused
    split at refused
    · cases refused
    next listed =>
      obtain rfl := Except.error.inj refused
      exact listed
  obtain ⟨fault, others, rfl⟩ := List.exists_cons_of_ne_nil some
  cases value with
  | mapping members => simp [verify, verify.checked, refused, Verification.passed, Issue.severity]
  | list items => simp [verify, verify.checked, refused, Verification.passed, Issue.severity]
  | _ => rfl

/-- A value that has the shape of a manifest, and is one that can be built. -/
def Builds (value : Value) : Prop :=
  ∃ manifest, value.checkManifest = .ok manifest ∧ manifest.Builds

theorem verify_passed_iff : value.verify.passed = true ↔ value.Builds := by
  cases checked : value.checkManifest with
  | error faults =>
    rw [verify_of_malformed checked]
    exact ⟨nofun, fun ⟨_, accepted, _⟩ => nomatch checked.symm.trans accepted⟩
  | ok manifest =>
    rw [verify_of_checked checked, StackManifest.verify_passed_iff]
    constructor
    · exact fun builds => ⟨manifest, checked, builds⟩
    · rintro ⟨other, again, builds⟩
      obtain rfl := Except.ok.inj (checked.symm.trans again)
      exact builds

end Value

section Preparation

variable {registry : Registry} {surroundings : Surroundings} {flags : RunFlags} {source : ManifestSource}
  {run : SettledRun} {inputs : RunInputs} {failure : Failure}

theorem settle_spec (settled : settle registry surroundings flags source = .ok run) :
    source.load = .ok run.manifest ∧ run.manifest.link = .ok run.stack := by
  obtain ⟨manifest, loaded, settled⟩ := bind_eq_ok_iff.1 settled
  obtain ⟨stack, linked, settled⟩ := bind_eq_ok_iff.1 settled
  obtain ⟨generator, _, settled⟩ := bind_eq_ok_iff.1 settled
  obtain ⟨collected, _, settled⟩ := bind_eq_ok_iff.1 settled
  obtain rfl := Except.ok.inj settled
  exact ⟨mapError_eq_ok_iff.1 loaded, mapError_eq_ok_iff.1 linked⟩

theorem resolve_error {platform : Text} {error : PipelineError} (failed : registry.resolve platform = .error error) :
    error = .unknownGenerator platform registry.platforms := by
  unfold Registry.resolve at failed
  split at failed
  · cases failed
  · exact (Except.error.inj failed).symm

/-- With a manifest loaded and linked, a run is left unsettled by what it is told beyond it. -/
theorem not_isOfManifest_of_settle {manifest : StackManifest} {stack : LinkedStack}
    (loaded : source.load = .ok manifest) (linked : manifest.link = .ok stack)
    (stopped : settle registry surroundings flags source = .error failure) : ¬ failure.IsOfManifest := by
  rcases bind_eq_error_iff.1 stopped with failed | ⟨other, again, stopped⟩
  · obtain ⟨faults, refused, _⟩ := mapError_eq_error_iff.1 failed
    exact nomatch loaded.symm.trans refused
  · obtain rfl := Except.ok.inj (loaded.symm.trans (mapError_eq_ok_iff.1 again))
    rcases bind_eq_error_iff.1 stopped with failed | ⟨_, _, stopped⟩
    · obtain ⟨faults, dangling, _⟩ := mapError_eq_error_iff.1 failed
      exact nomatch linked.symm.trans dangling
    · rcases bind_eq_error_iff.1 stopped with failed | ⟨_, _, stopped⟩
      · obtain ⟨error, unknown, rfl⟩ := mapError_eq_error_iff.1 failed
        obtain rfl := resolve_error unknown
        exact nofun
      · rcases bind_eq_error_iff.1 stopped with failed | ⟨_, _, settled⟩
        · obtain ⟨error, _, rfl⟩ := mapError_eq_error_iff.1 failed
          exact nofun
        · cases settled

theorem not_isOfManifest_of_gatherList {list : Option (Except HashListFault (List Text))}
    (stopped : gatherList list = .error failure) : ¬ failure.IsOfManifest := by
  unfold gatherList at stopped
  split at stopped
  · cases stopped
  · cases stopped
  · obtain rfl := Except.error.inj stopped
    exact nofun

theorem not_isOfManifest_of_gatherSignals {changed : Option Text}
    (stopped : gatherSignals inputs changed = .error failure) : ¬ failure.IsOfManifest := by
  rcases bind_eq_error_iff.1 stopped with failed | ⟨_, _, stopped⟩
  · exact not_isOfManifest_of_gatherList failed
  · rcases bind_eq_error_iff.1 stopped with failed | ⟨_, _, gathered⟩
    · exact not_isOfManifest_of_gatherList failed
    · cases gathered

theorem exists_graph_of_finish {changed : Option Text} {prepared : PreparedPipeline}
    (finished : run.finish inputs changed = .ok prepared) : ∃ graph, run.stack.graph = .ok graph := by
  obtain ⟨signals, _, finished⟩ := bind_eq_ok_iff.1 finished
  obtain ⟨pipeline, made, _⟩ := bind_eq_ok_iff.1 finished
  exact ⟨pipeline.graph, (LinkedStack.assemble_spec (mapError_eq_ok_iff.1 made)).1⟩

theorem not_isOfManifest_of_finish {changed : Option Text} {graph : PipelineGraph}
    (made : run.stack.graph = .ok graph) (stopped : run.finish inputs changed = .error failure) :
    ¬ failure.IsOfManifest := by
  rcases bind_eq_error_iff.1 stopped with failed | ⟨signals, _, stopped⟩
  · exact not_isOfManifest_of_gatherSignals failed
  · rcases bind_eq_error_iff.1 stopped with failed | ⟨_, _, finished⟩
    · obtain ⟨error, lacking, rfl⟩ := mapError_eq_error_iff.1 failed
      obtain ⟨node, _, field, rfl⟩ := LinkedStack.exists_node_of_assemble made lacking
      exact nofun
    · cases finished

theorem load_holds {value : Value} {manifest : StackManifest} :
    (ManifestSource.holds value).load = .ok manifest ↔ value.checkManifest = .ok manifest := by
  unfold ManifestSource.load
  cases checked : value.checkManifest <;> simp [checked]

/-- Whatever else a run is told, it is prepared only from a manifest that builds. -/
theorem builds_of_prepare {value : Value} (source : inputs.manifest = .holds value) {prepared : PreparedPipeline}
    (done : (prepare registry surroundings flags inputs).outcome = .ok prepared) : value.Builds := by
  unfold prepare at done
  cases settled : settle registry surroundings flags inputs.manifest with
  | error failure =>
    rw [settled] at done
    cases done
  | ok run =>
    rw [settled] at done
    obtain ⟨loaded, linked⟩ := settle_spec settled
    obtain ⟨graph, made⟩ := exists_graph_of_finish done
    rw [source] at loaded
    exact ⟨run.manifest, load_holds.1 loaded, run.stack, graph, linked, made⟩

theorem not_isOfManifest_of_prepare {value : Value} (source : inputs.manifest = .holds value)
    (builds : value.Builds) (stopped : (prepare registry surroundings flags inputs).outcome = .error failure) :
    ¬ failure.IsOfManifest := by
  obtain ⟨manifest, checked, stack, graph, linked, made⟩ := builds
  have loaded := load_holds.2 checked
  rw [← source] at loaded
  unfold prepare at stopped
  cases settled : settle registry surroundings flags inputs.manifest with
  | error other =>
    rw [settled] at stopped
    obtain rfl := Except.error.inj stopped
    exact not_isOfManifest_of_settle loaded linked settled
  | ok run =>
    rw [settled] at stopped
    obtain ⟨again, same⟩ := settle_spec settled
    obtain rfl := Except.ok.inj (loaded.symm.trans again)
    obtain rfl := Except.ok.inj (linked.symm.trans same)
    exact not_isOfManifest_of_finish made stopped

end Preparation

/-- Verification passes exactly what a run builds on, and warnings never count
against it. What it passes can fail a run only over what the run is told beyond it,
and every dangling reference is found in its place. -/
theorem Value.verified_as_prepared (value : Value) :
    (value.verify.passed = true ↔ ∃ manifest stack graph, value.checkManifest = .ok manifest ∧
      manifest.link = .ok stack ∧ stack.graph = .ok graph) ∧
    (value.verify.passed = true ↔ ∀ issue ∈ value.verify.issues, issue.severity ≠ .error) ∧
    (∀ registry surroundings flags inputs, inputs.manifest = .holds value →
      let outcome := (prepare registry surroundings flags inputs).outcome
      (value.verify.passed = false → ∃ failure, outcome = .error failure) ∧
        (value.verify.passed = true → ∀ failure, outcome = .error failure → ¬ failure.IsOfManifest)) ∧
    ∀ manifest, value.checkManifest = .ok manifest →
      (value.verify.issues.filter Issue.isReference).map Issue.finding = manifest.danglingFindings := by
  refine ⟨?_, Verification.passed_iff, ?_, ?_⟩
  · rw [verify_passed_iff]
    constructor
    · rintro ⟨manifest, checked, stack, graph, linked, made⟩
      exact ⟨manifest, stack, graph, checked, linked, made⟩
    · rintro ⟨manifest, stack, graph, checked, linked, made⟩
      exact ⟨manifest, checked, stack, graph, linked, made⟩
  · intro registry surroundings flags inputs source
    refine ⟨fun failed => ?_, fun passed failure => not_isOfManifest_of_prepare source (verify_passed_iff.1 passed)⟩
    cases outcome : (prepare registry surroundings flags inputs).outcome with
    | error failure => exact ⟨failure, rfl⟩
    | ok prepared =>
      have passed := verify_passed_iff.2 (builds_of_prepare source outcome)
      rw [failed] at passed
      cases passed
  · intro manifest checked
    rw [verify_of_checked checked]
    exact manifest.findings_verify

namespace SingleBuild

/-- A manifest with one build under the key `a`. -/
def value (roots dependencies : List Text) : Value :=
  .mapping
    [("name", .text "stack"),
     ("roots", .list (roots.map .text)),
     ("specs", .mapping
       [("a", .mapping
         [("name", .text "app"), ("version", .text "1"),
          ("dependencies", .list (dependencies.map .text))])])]

/-- A cycle, and references to keys that the table lacks. -/
def broken : Value := value ["r", "a"] ["x", "a", "y", "x"]

def sound : Value := value ["a"] []

/-- The preparation for a platform that nobody has registered. -/
def preparation (value : Value) : Preparation :=
  prepare .builtin ⟨⟨[]⟩, []⟩ { platform := some "other" } { manifest := .holds value }

end SingleBuild

open SingleBuild in
theorem Value.verified_as_prepared_singleBuild :
    (broken.verify.passed = false ∧ (∃ failure, (preparation broken).outcome = .error failure) ∧
      (broken.verify.issues.filter Issue.isReference).map Issue.finding = broken.manifest.danglingFindings ∧
      broken.manifest.danglingFindings.map (fun finding => (finding.1, finding.2.2)) =
        ([("DEPENDENCY-UNKNOWN", "Unknown dependency: x"), ("DEPENDENCY-UNKNOWN", "Unknown dependency: y"),
          ("DEPENDENCY-UNKNOWN", "Unknown dependency: x"), ("ROOT-UNKNOWN", "Unknown root spec: r")] :
          List (Text × Text))) ∧
    sound.verify.passed = true ∧
      ∃ failure, (preparation sound).outcome = .error failure ∧ ¬ failure.IsOfManifest := by
  constructor
  · obtain ⟨_, _, agree, found⟩ := Value.verified_as_prepared broken
    have failed : broken.verify.passed = false := by decide +kernel
    have shaped : manifestFaults broken = [] := by decide +kernel
    have checked : broken.checkManifest = .ok broken.manifest := by
      simp only [Value.checkManifest, shaped]
    exact ⟨failed, (agree .builtin ⟨⟨[]⟩, []⟩ _ _ rfl).1 failed, found _ checked, by decide +kernel⟩
  · obtain ⟨_, _, agree, _⟩ := Value.verified_as_prepared sound
    have passed : sound.verify.passed = true := by decide +kernel
    have refused : (preparation sound).outcome.toOption.isNone = true := by decide +kernel
    cases outcome : (preparation sound).outcome with
    | ok prepared => simp [outcome, Except.toOption] at refused
    | error failure => exact ⟨passed, failure, rfl, (agree .builtin ⟨⟨[]⟩, []⟩ _ _ rfl).2 passed failure outcome⟩

end BuildPipeline
