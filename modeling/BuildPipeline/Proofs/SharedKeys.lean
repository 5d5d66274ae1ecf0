import BuildPipeline.Proofs.Fingerprints
import BuildPipeline.Proofs.Merging
import BuildPipeline.Proofs.Outcomes
import BuildPipeline.Proofs.Stages

/-! When two builds would share a key. Names and ids are cut and cleaned, so different
builds may end up with the same one, but only when they also share the short
fingerprint that stands last in both. -/

namespace BuildPipeline

variable {keyOf : SpecNode → Text} {nodes : List SpecNode}

/-- One key for each fingerprint, that of the last node listed with it, and no key twice. -/
structure JobKeys.AreOf (keys : JobKeys) (keyOf : SpecNode → Text) (nodes : List SpecNode) : Prop where
  once : (keys.map Prod.fst).Nodup
  hashes : ∀ hash, hash ∈ keys.map Prod.fst ↔ hash ∈ nodes.map SpecNode.hash
  last : ∀ before node after, nodes = before ++ node :: after → node.hash ∉ after.map SpecNode.hash →
    keys.lookup node.hash = some (keyOf node)
  injective : ∀ left right key, keys.lookup left = some key → keys.lookup right = some key → left = right

theorem JobKeys.lookup_ofNodes_reverse (keyOf : SpecNode → Text) (nodes : List SpecNode) (hash : Text) :
    (assignEntries [] (ofNodes keyOf nodes)).lookup hash = (ofNodes keyOf nodes).reverse.lookup hash := by
  rw [lookup_assignEntries]
  exact Option.or_none

theorem JobKeys.areOf (apart : KeysApart keyOf nodes) :
    JobKeys.AreOf (assignEntries [] (JobKeys.ofNodes keyOf nodes)) keyOf nodes := by
  have owner : ∀ {hash key : Text}, (assignEntries [] (JobKeys.ofNodes keyOf nodes)).lookup hash = some key →
      ∃ node ∈ nodes, node.hash = hash ∧ keyOf node = key := by
    intro hash key found
    rw [lookup_ofNodes_reverse] at found
    obtain ⟨node, listed, same⟩ := List.mem_map.1 (List.mem_reverse.1 (mem_of_lookup found))
    exact ⟨node, listed, congrArg Prod.fst same, congrArg Prod.snd same⟩
  have last : ∀ before node after, nodes = before ++ node :: after → node.hash ∉ after.map SpecNode.hash →
      (assignEntries [] (JobKeys.ofNodes keyOf nodes)).lookup node.hash = some (keyOf node) := by
    rintro before node after rfl later
    have absent : node.hash ∉ (ofNodes keyOf after).reverse.map Prod.fst := by
      simpa [ofNodes] using later
    rw [lookup_ofNodes_reverse, ofNodes, List.map_append, List.map_cons, List.reverse_append, List.reverse_cons,
      List.append_assoc, List.lookup_append, ← ofNodes, lookup_eq_none absent]
    simp
  constructor
  case once => exact nodup_assigned _
  case last => exact last
  case hashes =>
    intro hash
    constructor
    · intro listed
      obtain ⟨key, found⟩ := exists_lookup_of_mem listed
      obtain ⟨node, member, rfl, _⟩ := owner found
      exact List.mem_map_of_mem member
    · intro listed
      have entered : hash ∈ (ofNodes keyOf nodes).reverse.map Prod.fst := by
        simpa [ofNodes] using listed
      obtain ⟨key, found⟩ := exists_lookup_of_mem entered
      rw [← lookup_ofNodes_reverse] at found
      exact List.mem_map_of_mem (f := Prod.fst) (mem_of_lookup found)
  case injective =>
    intro left right key found other
    obtain ⟨first, listed, rfl, rfl⟩ := owner found
    obtain ⟨second, member, rfl, same⟩ := owner other
    exact apart first listed second member same.symm

/-- What becomes of the keys of a list of nodes. -/
structure GivesKeys (keyOf : SpecNode → Text) (nodes : List SpecNode) : Prop where
  succeeds : (∃ keys, jobKeys nodes keyOf = .ok keys) ↔ KeysApart keyOf nodes
  given : ∀ keys, jobKeys nodes keyOf = .ok keys → keys.AreOf keyOf nodes
  fails : ∀ failure, jobKeys nodes keyOf = .error failure →
    ∃ owner node, FirstClash keyOf nodes owner node ∧ failure = .duplicateJob (keyOf node) owner.hash node.hash

theorem jobKeys_givesKeys (keyOf : SpecNode → Text) (nodes : List SpecNode) : GivesKeys keyOf nodes := by
  rcases jobKeys_outcome keyOf nodes with ⟨given, apart⟩ | ⟨owner, node, clash, stopped⟩
  · constructor
    case succeeds => exact ⟨fun _ => apart, fun _ => ⟨_, given⟩⟩
    case given =>
      intro keys made
      obtain rfl := Except.ok.inj (given.symm.trans made)
      exact JobKeys.areOf apart
    case fails => exact fun _ failed => nomatch given.symm.trans failed
  · constructor
    case succeeds =>
      refine ⟨?_, fun apart => absurd apart clash.not_keysApart⟩
      exact fun ⟨_, made⟩ => nomatch stopped.symm.trans made
    case given => exact fun _ made => nomatch stopped.symm.trans made
    case fails => exact fun _ failed => ⟨owner, node, clash, (Except.error.inj (stopped.symm.trans failed)).symm⟩

/-- Two different builds among the nodes that agree on their keys. -/
def SharesKey (agree : SpecNode → SpecNode → Prop) (nodes : List SpecNode) : Prop :=
  ∃ left ∈ nodes, ∃ right ∈ nodes, left.hash ≠ right.hash ∧ agree left right

theorem not_keysApart_iff :
    ¬ KeysApart keyOf nodes ↔ SharesKey (fun left right => keyOf left = keyOf right) nodes := by
  simp only [KeysApart, SharesKey, not_forall, exists_prop, and_comm (a := _ = _)]

theorem exists_map_jobKeys_eq_error_iff {α : Type _} (keyOf : SpecNode → Text) (nodes : List SpecNode)
    (finish : JobKeys → α) : (∃ failure, (jobKeys nodes keyOf).map finish = .error failure) ↔
      SharesKey (fun left right => keyOf left = keyOf right) nodes := by
  rw [← not_keysApart_iff, ← (jobKeys_givesKeys keyOf nodes).succeeds]
  cases jobKeys nodes keyOf <;> simp [Except.map]

theorem SharesKey.congr {agree other : SpecNode → SpecNode → Prop} {others : List SpecNode}
    (same : ∀ node, node ∈ nodes ↔ node ∈ others)
    (alike : ∀ left ∈ nodes, ∀ right ∈ nodes, agree left right ↔ other left right) :
    SharesKey agree nodes ↔ SharesKey other others := by
  simp only [SharesKey, ← same]
  refine exists_congr fun left => and_congr_right fun listed => exists_congr fun right => and_congr_right fun also => ?_
  rw [alike left listed right also]

theorem isFingerprint_of_mem_nodes {stack : LinkedStack} {graph : PipelineGraph} (built : stack.graph = .ok graph)
    {node : SpecNode} (listed : node ∈ graph.nodes) : IsFingerprint node.hash := by
  cases walked : stack.walk with
  | error cycle => exact nomatch built.symm.trans (LinkedStack.graph_of_walk_error walked)
  | ok build =>
    obtain ⟨other, made, nodes, _⟩ := LinkedStack.exists_graph_of_walk walked
    obtain rfl := Except.ok.inj (built.symm.trans made)
    obtain ⟨_, tree, _, _, rfl⟩ := LinkedStack.exists_key_of_mem_nodes walked nodes listed
    rw [tree.hash_node, tree.hash_eq]
    exact isFingerprint_fingerprint _

theorem IsFingerprint.length_hashSuffix {node : SpecNode} (whole : IsFingerprint node.hash) :
    node.hashSuffix.length = 9 := by
  rw [SpecNode.hashSuffix, List.length_append, shortHash, whole.length_shortHash]
  rfl

namespace Gitlab

variable {left right node : SpecNode}

theorem jobName_eq (whole : IsFingerprint node.hash) : jobName node = node.label.take 246 ++ node.hashSuffix := by
  rw [jobName, whole.length_hashSuffix]
  rfl

theorem jobName_eq_iff (first : IsFingerprint left.hash) (second : IsFingerprint right.hash) :
    jobName left = jobName right ↔
      left.hash.take 7 = right.hash.take 7 ∧ left.label.take 246 = right.label.take 246 := by
  rw [jobName_eq first, jobName_eq second]
  constructor
  · intro same
    obtain ⟨front, ending⟩ := List.append_inj' same (first.length_hashSuffix.trans second.length_hashSuffix.symm)
    exact ⟨List.append_cancel_left ending, front⟩
  · rintro ⟨short, front⟩
    rw [SpecNode.hashSuffix, SpecNode.hashSuffix, shortHash, shortHash, short, front]

theorem length_jobName_le (whole : IsFingerprint node.hash) : (jobName node).length ≤ 255 := by
  rw [jobName_eq whole, List.length_append, whole.length_hashSuffix, List.length_take]
  omega

end Gitlab

namespace Github

variable {left right node : SpecNode}

theorem isIdUnit_of_isHashDigit {unit : CodeUnit} (digit : isHashDigit unit = true) : isIdUnit unit = true := by
  rw [isIdUnit, isAlphanumeric_of_isHashDigit digit]
  rfl

/-- A package name with other units than those of ids replaced, and a start put in front where it needs one. -/
def cleanName (name : Text) : Text :=
  let base := name.map fun unit => if isIdUnit unit then unit else 0x2D
  (if (base.head?.map isIdStart).getD false then [] else "pkg-") ++ base

theorem jobId_eq (node : SpecNode) : jobId node = cleanName node.name ++ ("-" ++ shortHash node.hash) := by
  rw [← List.append_assoc]
  rfl

theorem jobId_eq_iff (first : IsFingerprint left.hash) (second : IsFingerprint right.hash) :
    jobId left = jobId right ↔
      left.hash.take 7 = right.hash.take 7 ∧ cleanName left.name = cleanName right.name := by
  rw [jobId_eq, jobId_eq]
  constructor
  · intro same
    have lengths : (("-" : Text) ++ shortHash left.hash).length = (("-" : Text) ++ shortHash right.hash).length := by
      rw [List.length_append, List.length_append, shortHash, shortHash, first.length_shortHash, second.length_shortHash]
    obtain ⟨front, ending⟩ := List.append_inj' same lengths
    exact ⟨List.append_cancel_left ending, front⟩
  · rintro ⟨short, front⟩
    rw [front, shortHash, shortHash, short]

theorem isIdUnit_of_mem_cleanName {name : Text} {unit : CodeUnit} (member : unit ∈ cleanName name) :
    isIdUnit unit = true := by
  have start : ("pkg-" : Text).all isIdUnit = true := by decide +kernel
  rcases List.mem_append.1 member with front | kept
  · split at front
    · cases front
    · exact List.all_eq_true.1 start unit front
  · obtain ⟨source, _, rfl⟩ := List.mem_map.1 kept
    split
    next valid => exact valid
    · decide +kernel

theorem exists_start_cleanName (name : Text) :
    ∃ first rest, cleanName name = first :: rest ∧ isIdStart first = true := by
  cases name with
  | nil => exact ⟨_, _, rfl, by decide +kernel⟩
  | cons first rest =>
    simp only [cleanName, List.map_cons, List.head?_cons, Option.map_some, Option.getD_some]
    generalize (if isIdUnit first = true then first else 0x2D) = start
    split
    next starts => exact ⟨_, _, rfl, starts⟩
    · exact ⟨_, _, rfl, by decide +kernel⟩

theorem isIdUnit_of_mem_jobId (whole : IsFingerprint node.hash) {unit : CodeUnit} (member : unit ∈ jobId node) :
    isIdUnit unit = true := by
  have dash : ("-" : Text).all isIdUnit = true := by decide +kernel
  rw [jobId_eq] at member
  rcases List.mem_append.1 member with front | ending
  · exact isIdUnit_of_mem_cleanName front
  · rcases List.mem_append.1 ending with between | digit
    · exact List.all_eq_true.1 dash unit between
    · exact isIdUnit_of_isHashDigit (whole.isHashDigit_of_mem_take digit)

end Github

/-- When an assembled pipeline cannot be written, and what its jobs are called. -/
structure AnnotatedPipeline.NamesJobs (pipeline : AnnotatedPipeline) : Prop where
  gitlab_fails : ∀ written settings, (∃ failure, pipeline.renderGitlab written settings = .error failure) ↔
    SharesKey (fun left right =>
      left.hash.take 7 = right.hash.take 7 ∧ left.label.take 246 = right.label.take 246)
      (pipeline.graph.keptNodes pipeline.pruning)
  github_fails : ∀ written settings, (∃ failure, pipeline.renderGithub written settings = .error failure) ↔
    SharesKey (fun left right =>
      left.hash.take 7 = right.hash.take 7 ∧ Github.cleanName left.name = Github.cleanName right.name)
      (pipeline.graph.keptNodes pipeline.pruning)
  names : ∀ node ∈ pipeline.graph.nodes, (Gitlab.jobName node).length ≤ 255 ∧ ∃ front short : Text,
    Gitlab.jobName node = front ++ " /" ++ short ∧ short = node.hash.take 7 ∧ short.length = 7 ∧
      ∀ unit ∈ short, isHashDigit unit = true
  ids : ∀ node ∈ pipeline.graph.nodes, (∀ unit ∈ Github.jobId node, Github.isIdUnit unit = true) ∧
    ∃ first rest, Github.jobId node = first :: rest ∧ Github.isIdStart first = true

namespace LinkedStack

variable {stack : LinkedStack} {config : CiConfig} {options : PruneOptions} {signals : PruneSignals}
  {pipeline : AnnotatedPipeline}

theorem namesJobs_of_assemble (made : stack.assemble config options signals = .ok pipeline) : pipeline.NamesJobs := by
  obtain ⟨built, _, _, _⟩ := assemble_spec made
  obtain ⟨plan, all⟩ := exists_plansAllKept made
  have whole : ∀ node ∈ pipeline.graph.nodes, IsFingerprint node.hash := fun _ => isFingerprint_of_mem_nodes built
  have planned : ∀ node, node ∈ plan.jobs.map PlannedJob.node ↔ node ∈ pipeline.graph.keptNodes pipeline.pruning :=
    fun _ => all.jobs.mem_iff
  have wholeJob : ∀ node ∈ plan.jobs.map PlannedJob.node, IsFingerprint node.hash :=
    fun node listed => whole node (List.mem_filter.1 ((planned node).1 listed)).1
  constructor
  case gitlab_fails =>
    intro written settings
    rw [AnnotatedPipeline.renderGitlab_of_plan all.planned, Gitlab.document_eq, map_map, exists_map_jobKeys_eq_error_iff]
    exact SharesKey.congr planned fun left first right second =>
      Gitlab.jobName_eq_iff (wholeJob left first) (wholeJob right second)
  case github_fails =>
    intro written settings
    rw [AnnotatedPipeline.renderGithub_of_plan all.planned, Github.document_eq, map_map, exists_map_jobKeys_eq_error_iff]
    exact SharesKey.congr planned fun left first right second =>
      Github.jobId_eq_iff (wholeJob left first) (wholeJob right second)
  case names =>
    intro node listed
    refine ⟨Gitlab.length_jobName_le (whole node listed), node.label.take 246, _, ?_, rfl,
      (whole node listed).length_shortHash, fun _ => (whole node listed).isHashDigit_of_mem_take⟩
    rw [Gitlab.jobName_eq (whole node listed), List.append_assoc]
    rfl
  case ids =>
    intro node listed
    refine ⟨fun _ => Github.isIdUnit_of_mem_jobId (whole node listed), ?_⟩
    obtain ⟨first, rest, cleaned, starts⟩ := Github.exists_start_cleanName node.name
    exact ⟨first, _, by rw [Github.jobId_eq, cleaned, List.cons_append], starts⟩

end LinkedStack

/-- Two builds of one package at one version, for machines whose names were chosen so
that the fingerprints begin with the same seven digits. -/
def LinkedStack.lookalikes : LinkedStack where
  specs :=
    let entry (arch : Text) : SpecEntry := ⟨{ name := [97], version := [49], arch := some arch }, []⟩
    ⟨[([97], entry [100, 100, 121]), ([98], entry [102, 112, 117])], by decide⟩
  roots := [[97], [98]]
  dependencies_known := by decide
  roots_known := by decide

/-- Keys are given out unless two builds share one, and then the first clash is named.
So a pipeline is written unless two of its kept builds agree on the short fingerprint
and on what is left of their labels. -/
theorem jobs_fail_on_shared_keys : (∀ keyOf nodes, GivesKeys keyOf nodes) ∧
    ∀ (stack : LinkedStack) config options signals pipeline, stack.assemble config options signals = .ok pipeline →
      pipeline.NamesJobs :=
  ⟨jobKeys_givesKeys, fun _ _ _ _ _ => LinkedStack.namesJobs_of_assemble⟩

theorem jobs_fail_on_shared_keys_lookalikes :
    ∃ pipeline, LinkedStack.lookalikes.assemble (LinkedStack.hintedConfig 1) {} {} = .ok pipeline ∧
      pipeline.graph.nodes.length = 2 ∧
      (∀ written settings, ∃ failure, pipeline.renderGitlab written settings = .error failure) ∧
      ∀ written settings, ∃ failure, pipeline.renderGithub written settings = .error failure := by
  have evaluated : ((LinkedStack.lookalikes.assemble (LinkedStack.hintedConfig 1) {} {}).toOption.any fun pipeline =>
      pipeline.graph.nodes.length = 2 &&
        (pipeline.graph.keptNodes pipeline.pruning).any fun left =>
          (pipeline.graph.keptNodes pipeline.pruning).any fun right =>
            left.hash ≠ right.hash && left.hash.take 7 = right.hash.take 7 &&
              left.label.take 246 = right.label.take 246 &&
              Github.cleanName left.name = Github.cleanName right.name) = true := by
    decide +kernel
  obtain ⟨pipeline, made, evaluated⟩ := exists_ok_of_any evaluated
  simp only [Bool.and_eq_true, List.any_eq_true, decide_eq_true_eq] at evaluated
  obtain ⟨two, left, first, right, second, ⟨⟨apart, short⟩, label⟩, clean⟩ := evaluated
  have named := jobs_fail_on_shared_keys.2 _ _ _ _ _ made
  exact ⟨pipeline, made, two,
    fun written settings => (named.gitlab_fails written settings).2 ⟨left, first, right, second, apart, short, label⟩,
    fun written settings => (named.github_fails written settings).2 ⟨left, first, right, second, apart, short, clean⟩⟩

end BuildPipeline
