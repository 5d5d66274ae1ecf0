import BuildPipeline.Proofs.DocumentJobs
import BuildPipeline.Proofs.PlannedNeeds
import BuildPipeline.Proofs.Precedence

/-! The runners that documents ask for. Tags come from the rules, from the defaults
or from a fallback, and none of these ways lets a tag through that is kept for
signing. -/

namespace BuildPipeline

namespace Document

/-- What is asked of every member of a mapping, at any depth. -/
inductive EachMember (holds : Text → Document → Prop) : Document → Prop
  | text (value : Text) : EachMember holds (.text value)
  | number (value : Nat) : EachMember holds (.number value)
  | boolean (value : Bool) : EachMember holds (.boolean value)
  | list {items : List Document} (inside : ∀ item ∈ items, EachMember holds item) : EachMember holds (.list items)
  | mapping {members : List (Text × Document)} (own : ∀ member ∈ members, holds member.1 member.2)
      (inside : ∀ member ∈ members, EachMember holds member.2) : EachMember holds (.mapping members)

attribute [simp] EachMember.text EachMember.number EachMember.boolean

variable {holds : Text → Document → Prop}

@[simp] theorem eachMember_list {items : List Document} :
    EachMember holds (.list items) ↔ ∀ item ∈ items, EachMember holds item := by
  constructor
  · rintro (_ | _ | _ | inside)
    exact inside
  · exact .list

@[simp] theorem eachMember_ofTexts (values : List Text) : EachMember holds (.ofTexts values) := by
  simp [ofTexts]

/-- What is asked of members, and of all that is inside them. -/
def Members (holds : Text → Document → Prop) (members : List (Text × Document)) : Prop :=
  ∀ member ∈ members, holds member.1 member.2 ∧ EachMember holds member.2

@[simp] theorem eachMember_mapping {members : List (Text × Document)} :
    EachMember holds (.mapping members) ↔ Members holds members := by
  constructor
  · rintro (_ | _ | _ | _ | ⟨own, inside⟩)
    exact fun member listed => ⟨own member listed, inside member listed⟩
  · exact fun each => .mapping (fun member listed => (each member listed).1) fun member listed => (each member listed).2

@[simp] theorem members_nil : Members holds [] :=
  nofun

@[simp] theorem members_cons {key : Text} {value : Document} {rest : List (Text × Document)} :
    Members holds ((key, value) :: rest) ↔ (holds key value ∧ EachMember holds value) ∧ Members holds rest :=
  List.forall_mem_cons

@[simp] theorem members_append {first second : List (Text × Document)} :
    Members holds (first ++ second) ↔ Members holds first ∧ Members holds second :=
  List.forall_mem_append

@[simp] theorem members_optionalMember {key : Text} {value : Option Document} :
    Members holds (optionalMember key value) ↔
      ∀ inner, value = some inner → holds key inner ∧ EachMember holds inner := by
  cases value <;> simp [optionalMember]

end Document

open Document

/-- The keys under which a job lists the runners that may take it. -/
def runnerKeys : List Text := ["tags", "runs-on"]

/-- A list of runners without those that are kept for signing. -/
def Unreserved (key : Text) (value : Document) : Prop :=
  key ∈ runnerKeys → ∀ items, value = .list items → ∀ tag ∈ reservedTags, .text tag ∉ items

theorem unreserved_of_notMem {key : Text} {value : Document} (other : key ∉ runnerKeys) : Unreserved key value :=
  fun own => absurd own other

@[simp] theorem unreserved_text (key value : Text) : Unreserved key (.text value) :=
  nofun

@[simp] theorem unreserved_mapping (key : Text) (members : List (Text × Document)) : Unreserved key (.mapping members) :=
  nofun

theorem unreserved_ofTexts {tags : List Text} (free : ∀ tag ∈ tags, tag ∉ reservedTags) (key : Text) :
    Unreserved key (.ofTexts tags) := by
  rintro _ _ ⟨rfl⟩ tag reserved listed
  obtain ⟨own, member, same⟩ := List.mem_map.1 listed
  obtain rfl := Document.text.inj same
  exact free own member reserved

theorem notMem_reservedTags {tags : List Text} : ∀ tag ∈ withoutReservedTags tags, tag ∉ reservedTags := by
  intro tag listed
  simpa using (List.mem_filter.1 listed).2

@[simp] theorem eachMember_ofVariables (table : Table Text) : (ofVariables table).EachMember Unreserved := by
  rw [ofVariables, eachMember_mapping]
  intro member listed
  obtain ⟨entry, _, rfl⟩ := List.mem_map.1 listed
  exact ⟨unreserved_text entry.1 entry.2, .text entry.2⟩

/-- One entry for each job, and in it the tags that the job was planned with. -/
structure JobPlan.TagsJobs (plan : JobPlan) (keyOf : SpecNode → Text) (field : Text)
    (entries : List (Text × Document)) : Prop where
  keys : (entries.map Prod.fst).Perm (plan.jobs.map fun job => keyOf job.node)
  tags : ∀ entry ∈ entries, ∃ job ∈ plan.jobs, entry.1 = keyOf job.node ∧
    entry.2.member? field = some (.ofTexts job.attributes.tags)

theorem JobPlan.TagsJobs.of_entries {plan : JobPlan} {keyOf : SpecNode → Text} {field : Text}
    {entries : List (Text × Document)} {entry : PlannedJob → Document}
    (same : entries.Perm (plan.jobs.map fun job => (keyOf job.node, entry job)))
    (tagged : ∀ job, (entry job).member? field = some (.ofTexts job.attributes.tags)) :
    plan.TagsJobs keyOf field entries := by
  constructor
  · simpa [List.map_map, Function.comp_def] using same.map Prod.fst
  · intro member listed
    obtain ⟨job, planned, rfl⟩ := List.mem_map.1 (same.mem_iff.1 listed)
    exact ⟨job, planned, rfl, tagged job⟩

theorem free_serviceTags (config : CiConfig) : ∀ tag ∈ config.serviceTags, tag ∉ reservedTags :=
  notMem_reservedTags

/-- Tags that a build is given. -/
structure BuildTags (tags : List Text) : Prop where
  some : tags ≠ []
  sorted : tags.Pairwise (textLe · · = true)
  once : tags.Nodup
  unreserved : ∀ tag ∈ tags, tag ∉ reservedTags

namespace Gitlab

theorem eachMember_needs (names : JobKeys) (job : PlannedJob) : (needs names job).EachMember Unreserved := by
  rw [needs, eachMember_list]
  intro item listed
  obtain ⟨_, _, named⟩ := List.mem_filterMap.1 listed
  obtain ⟨name, _, rfl⟩ := Option.map_eq_some_iff.1 named
  simp +decide [need, unreserved_of_notMem]

theorem eachMember_buildJob (config : CiConfig) (names : JobKeys) {job : PlannedJob}
    (free : ∀ tag ∈ job.attributes.tags, tag ∉ reservedTags) :
    (buildJob config names job).EachMember Unreserved := by
  simp +decide [buildJob, ofParts, imageMember, retry, eachMember_needs, unreserved_ofTexts free, unreserved_of_notMem]

theorem members_serviceTagsMember (config : CiConfig) : Members Unreserved (serviceTagsMember config) := by
  simp only [serviceTagsMember]
  split
  · exact members_nil
  · simpa using unreserved_ofTexts (free_serviceTags config) _

theorem members_fixedMembers (config : CiConfig) (settings : PipelineOptions) (plan : JobPlan) :
    Members Unreserved (fixedMembers config settings plan) := by
  have index : (indexJob config).EachMember Unreserved := by
    simp +decide [indexJob, ofParts, imageMember, retry, members_serviceTagsMember, unreserved_of_notMem]
  have empty : (emptyJob config).EachMember Unreserved := by
    simp +decide [emptyJob, ofParts, members_serviceTagsMember, unreserved_of_notMem]
  unfold fixedMembers planMembers emptyMembers
  cases plan.jobs.isEmpty <;> cases rebuildsIndex config <;>
    simp +decide [index, empty, unreserved_of_notMem]

theorem eachMember_document {config : CiConfig} {settings : PipelineOptions} {plan : JobPlan} {document : Document}
    (free : ∀ job ∈ plan.jobs, ∀ tag ∈ job.attributes.tags, tag ∉ reservedTags)
    (made : Gitlab.document config settings plan = .ok document) : document.EachMember Unreserved := by
  rw [document_eq] at made
  obtain ⟨names, _, rfl⟩ := map_eq_ok_iff.1 made
  rw [eachMember_mapping]
  intro member listed
  rcases List.mem_append.1 ((members_perm config settings plan names).mem_iff.1 listed) with own | fixed
  · obtain ⟨job, planned, rfl⟩ := List.mem_map.1 own
    exact ⟨unreserved_mapping _ _, eachMember_buildJob config names (free job planned)⟩
  · exact members_fixedMembers config settings plan member fixed

/-- The entries of a document that are build jobs. -/
def buildEntries (document : Document) : List (Text × Document) :=
  document.members.filter fun member => member.1 ∉ fixedNames

theorem tagsJobs_buildEntries {config : CiConfig} {settings : PipelineOptions} {plan : JobPlan} {document : Document}
    (made : Gitlab.document config settings plan = .ok document) :
    plan.TagsJobs jobName "tags" (buildEntries document) := by
  rw [document_eq] at made
  obtain ⟨names, _, rfl⟩ := map_eq_ok_iff.1 made
  have entries : (buildEntries (.mapping (members config settings plan names))).Perm
      (plan.jobs.map fun job => (jobName job.node, buildJob config names job)) := by
    rw [buildEntries, Document.members, filter_members]
    exact sortBy_perm _ _
  exact .of_entries entries fun _ => rfl

end Gitlab

namespace Github

theorem eachMember_buildJob (config : CiConfig) (ids : JobKeys) {job : PlannedJob}
    (free : ∀ tag ∈ job.attributes.tags, tag ∉ reservedTags) :
    (buildJob config ids job).EachMember Unreserved := by
  have waits : Members Unreserved (needsMember ids job) := by
    simp only [needsMember]
    split <;> simp +decide [unreserved_of_notMem]
  simp +decide [buildJob, ofParts, step, waits, unreserved_ofTexts free, unreserved_of_notMem]

theorem eachMember_emptyJob (config : CiConfig) : (emptyJob config).EachMember Unreserved := by
  have runners : Unreserved "runs-on"
      (ofTexts (if config.serviceTags.isEmpty then [fallbackRunner] else config.serviceTags)) := by
    split
    · exact unreserved_ofTexts (by decide) _
    · exact unreserved_ofTexts (free_serviceTags config) _
  simp only [emptyJob, eachMember_mapping, members_cons, members_nil, eachMember_ofTexts, runners]
  simp +decide [step, unreserved_of_notMem]

theorem eachMember_document {config : CiConfig} {settings : PipelineOptions} {plan : JobPlan} {document : Document}
    (free : ∀ job ∈ plan.jobs, ∀ tag ∈ job.attributes.tags, tag ∉ reservedTags)
    (made : Github.document config settings plan = .ok document) : document.EachMember Unreserved := by
  rw [document_eq] at made
  obtain ⟨ids, _, rfl⟩ := map_eq_ok_iff.1 made
  have listed : Members Unreserved (listedMembers config plan ids) := by
    unfold listedMembers
    split
    · simp +decide [eachMember_emptyJob, unreserved_of_notMem]
    · intro member listed
      obtain ⟨job, planned, rfl⟩ := List.mem_map.1 listed
      exact ⟨unreserved_mapping _ _, eachMember_buildJob config ids (free job planned)⟩
  simp +decide [listed, unreserved_of_notMem]

/-- The entries under `jobs` that are build jobs. -/
def buildEntries (document : Document) : List (Text × Document) :=
  (((document.member? "jobs").map Document.members).getD []).filter fun member => member.1 ∉ fixedIds

theorem tagsJobs_buildEntries {config : CiConfig} {settings : PipelineOptions} {plan : JobPlan} {document : Document}
    (made : Github.document config settings plan = .ok document) :
    plan.TagsJobs jobId "runs-on" (buildEntries document) := by
  rw [document_eq] at made
  obtain ⟨ids, _, rfl⟩ := map_eq_ok_iff.1 made
  have entries : ((listedMembers config plan ids).filter fun member => member.1 ∉ fixedIds).Perm
      (plan.jobs.map fun job => (jobId job.node, buildJob config ids job)) := by
    rw [filter_listedMembers, jobMembers]
  exact .of_entries entries fun _ => rfl

end Github

theorem AttributeSelection.buildTags {selection : AttributeSelection} {node : SpecNode} {rules : List AttributeRule}
    {attributes : JobAttributes} (settles : selection.Settles node (node.resolveAttributes rules))
    (resolved : node.resolveAttributes rules = .ok attributes) : BuildTags attributes.tags := by
  have tagged : ¬ selection.LacksTags := fun lacking =>
    nomatch resolved.symm.trans (settles.lacksTags.2 lacking)
  have hinted : ¬ selection.LacksOrderHint := fun lacking =>
    nomatch resolved.symm.trans (settles.lacksOrderHint.2 ⟨tagged, lacking⟩)
  obtain ⟨given, done, gives⟩ := settles.resolved tagged hinted
  obtain rfl := Except.ok.inj (resolved.symm.trans done)
  refine ⟨?_, gives.sorted, gives.unique, fun tag listed => ((gives.tags tag).1 listed).2⟩
  intro none
  refine tagged fun tags chosen tag listed => ?_
  by_contra free
  have kept := (gives.tags tag).2 ⟨by rwa [chosen, Option.getD_some], free⟩
  rw [none] at kept
  cases kept

theorem SpecNode.buildTags_of_resolveAttributes {node : SpecNode} {rules : List AttributeRule}
    {attributes : JobAttributes} (resolved : node.resolveAttributes rules = .ok attributes) :
    BuildTags attributes.tags :=
  AttributeSelection.buildTags (AttributeSelection.drafted_ofLast _ node).settles resolved

/-- Whatever a pipeline with resolved attributes is written with, no list of runners in
either document has a tag that is kept for signing. Every build job lists the tags that
it was planned with, and these are some, in order and each of them once. -/
theorem AnnotatedPipeline.documents_run_unreserved {graph : PipelineGraph} {pruning : Pruning} {config : CiConfig}
    {attributes : AttributeMap} (resolved : graph.resolveAttributes pruning config = .ok attributes)
    (written : CiConfig) (settings : PipelineOptions) :
    let pipeline : AnnotatedPipeline := ⟨graph, pruning, attributes⟩
    ∃ plan, pipeline.plan = .ok plan ∧ (∀ job ∈ plan.jobs, BuildTags job.attributes.tags) ∧
      pipeline.renderGitlab written settings = (Gitlab.document written settings plan).map Document.render ∧
      pipeline.renderGithub written settings = (Github.document written settings plan).map Document.render ∧
      (∀ document, Gitlab.document written settings plan = .ok document →
        document.EachMember Unreserved ∧ plan.TagsJobs Gitlab.jobName "tags" (Gitlab.buildEntries document)) ∧
      ∀ document, Github.document written settings plan = .ok document →
        document.EachMember Unreserved ∧ plan.TagsJobs Github.jobId "runs-on" (Github.buildEntries document) := by
  intro pipeline
  have attributes := attributesOf_of_resolveAttributes resolved
  obtain ⟨plan, planned, own⟩ := attributes.isResolved.exists_plan
  have tags : ∀ job ∈ plan.jobs, BuildTags job.attributes.tags := by
    intro job member
    obtain ⟨node, _, _, settled⟩ := attributes.exists_node (mem_of_lookup (own job member))
    exact SpecNode.buildTags_of_resolveAttributes settled
  have free : ∀ job ∈ plan.jobs, ∀ tag ∈ job.attributes.tags, tag ∉ reservedTags := fun job member =>
    (tags job member).unreserved
  refine ⟨plan, planned, tags, renderGitlab_of_plan planned written settings,
    renderGithub_of_plan planned written settings, fun document made => ?_, fun document made => ?_⟩
  · exact ⟨Gitlab.eachMember_document free made, Gitlab.tagsJobs_buildEntries made⟩
  · exact ⟨Github.eachMember_document free made, Github.tagsJobs_buildEntries made⟩

/-- One of two overlapping rules asks for a runner that signs. -/
theorem AnnotatedPipeline.documents_run_unreserved_overlapping :
    let pruning : Pruning := [([1], ⟨.keep, []⟩), ([4], ⟨.keep, []⟩)]
    ∃ attributes plan document, twoWays.resolveAttributes pruning SpecNode.Overlapping.config = .ok attributes ∧
      (⟨twoWays, pruning, attributes⟩ : AnnotatedPipeline).plan = .ok plan ∧
      plan.jobs.map (·.attributes.tags) = ([["big"], ["big"]] : List (List Text)) ∧
      Gitlab.document SpecNode.Overlapping.config LinkedStack.pairSettings plan = .ok document ∧
      document.EachMember Unreserved ∧ plan.TagsJobs Gitlab.jobName "tags" (Gitlab.buildEntries document) := by
  intro pruning
  have evaluated : ((twoWays.resolveAttributes pruning SpecNode.Overlapping.config).toOption.any fun attributes =>
      (⟨twoWays, pruning, attributes⟩ : AnnotatedPipeline).plan.toOption.any fun plan =>
        plan.jobs.map (·.attributes.tags) = ([["big"], ["big"]] : List (List Text)) &&
        (Gitlab.document SpecNode.Overlapping.config LinkedStack.pairSettings plan).toOption.any fun _ => true) =
        true := by
    decide +kernel
  obtain ⟨attributes, resolved, evaluated⟩ := exists_ok_of_any evaluated
  obtain ⟨plan, planned, _, _, _, gitlab, _⟩ :=
    documents_run_unreserved resolved SpecNode.Overlapping.config LinkedStack.pairSettings
  rw [planned] at evaluated
  obtain ⟨tags, evaluated⟩ := Bool.and_eq_true_iff.1 evaluated
  obtain ⟨document, made, _⟩ := exists_ok_of_any evaluated
  exact ⟨attributes, plan, document, resolved, planned, of_decide_eq_true tags, made, gitlab document made⟩

end BuildPipeline
