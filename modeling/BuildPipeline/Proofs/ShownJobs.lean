import BuildPipeline.Proofs.NameShapes
import BuildPipeline.Proofs.Outcomes

/-! The jobs that a reader finds in a document: each entry that is not one of the
platform's own, with the stage that it shows and the entries that it waits for. -/

namespace BuildPipeline

structure ShownJob where
  key : Text
  stage : Text
  needs : List Text
deriving DecidableEq

/-- The same job where all keys are others. -/
def ShownJob.renamed (rename : Text → Text) (job : ShownJob) : ShownJob :=
  ⟨rename job.key, job.stage, job.needs.map rename⟩

/-- Two listings that differ in the order and in the keys of their jobs only. -/
structure SameJobGraph (rename : Text → Text) (left right : List ShownJob) : Prop where
  apart : ∀ key ∈ left.map ShownJob.key, ∀ other ∈ left.map ShownJob.key, rename key = rename other → key = other
  jobs : (left.map (·.renamed rename)).Perm right

namespace Document

def text? : Document → Option Text
  | .text value => some value
  | _ => none

def items? : Document → Option (List Document)
  | .list items => some items
  | _ => none

end Document

namespace Gitlab

def shownNeed? (need : Document) : Option Text := do
  (← need.member? "job").text?

def shownJob? (member : Text × Document) : Option ShownJob := do
  let stage ← (← member.2.member? "stage").text?
  let needs ← (← member.2.member? "needs").items?
  return ⟨member.1, stage, ← needs.mapM shownNeed?⟩

def shownJobs? (document : Document) : Option (List ShownJob) :=
  (document.members.filter fun member => member.1 ∉ fixedNames).mapM shownJob?

end Gitlab

namespace Github

/-- Without the member a job waits for nothing. -/
def shownNeeds? (entry : Document) : Option (List Text) :=
  match entry.member? "needs" with
  | none => some []
  | some listed => do (← listed.items?).mapM Document.text?

/-- The stage stands in front of the first colon of a job's title. -/
def shownJob? (member : Text × Document) : Option ShownJob := do
  let title ← (← member.2.member? "name").text?
  return ⟨member.1, title.takeWhile (· ≠ CodeUnit.ofChar ':'), ← shownNeeds? member.2⟩

def shownJobs? (document : Document) : Option (List ShownJob) := do
  let jobs ← document.member? "jobs"
  (jobs.members.filter fun member => member.1 ∉ fixedIds).mapM shownJob?

end Github

theorem map_eq_of_forall₂ {α β γ : Type _} {first : α → β → Prop} {second : α → γ → Prop} {change : β → γ}
    (same : ∀ item left right, first item left → second item right → change left = right)
    {items : List α} {lefts : List β} {rights : List γ} (ones : List.Forall₂ first items lefts)
    (others : List.Forall₂ second items rights) : lefts.map change = rights := by
  induction ones generalizing rights with
  | nil =>
    cases others
    rfl
  | cons one _ ih =>
    cases others with
    | cons other rest => rw [List.map_cons, same _ _ _ one other, ih rest]

namespace JobPlan

variable {plan : JobPlan} {keyOf other : SpecNode → Text}

/-- An entry that stands for a job, under the job's key. -/
structure Shows (plan : JobPlan) (keyOf : SpecNode → Text) (job : PlannedJob) (shown : ShownJob) : Prop where
  planned : job ∈ plan.jobs
  key : shown.key = keyOf job.node
  stage : shown.stage = stageName job.stage
  needs : List.Forall₂ (fun need key => ∃ source ∈ plan.jobs, source.node.hash = need ∧ key = keyOf source.node)
    job.needs shown.needs

/-- All jobs of a plan, each of them in one entry, and no entry besides. -/
structure ShownAs (plan : JobPlan) (keyOf : SpecNode → Text) (shown : List ShownJob) : Prop where
  keys_unique : (shown.map ShownJob.key).Nodup
  jobs : ∃ order : List PlannedJob, order.Perm plan.jobs ∧ List.Forall₂ (plan.Shows keyOf) order shown

/-- Jobs that are told apart by their builds and need only one another. -/
structure Closed (plan : JobPlan) : Prop where
  once : (plan.jobs.map (·.node.hash)).Nodup
  provided : ∀ job ∈ plan.jobs, ∀ need ∈ job.needs, ∃ source ∈ plan.jobs, source.node.hash = need

theorem Closed.eq_of_hash_eq (closed : plan.Closed) {left right : PlannedJob} (first : left ∈ plan.jobs)
    (second : right ∈ plan.jobs) (same : left.node.hash = right.node.hash) : left = right :=
  List.inj_on_of_nodup_map closed.once first second same

def keys (plan : JobPlan) (keyOf : SpecNode → Text) : JobKeys :=
  JobKeys.ofNodes keyOf (plan.jobs.map PlannedJob.node)

theorem Closed.lookup_keys (closed : plan.Closed) (keyOf : SpecNode → Text) {job : PlannedJob}
    (listed : job ∈ plan.jobs) : (plan.keys keyOf).lookup job.node.hash = some (keyOf job.node) := by
  have unique : ((plan.keys keyOf).map Prod.fst).Nodup := by
    simpa [keys, JobKeys.ofNodes, Function.comp_def] using closed.once
  refine (lookup_eq_some_iff_mem unique).2 ?_
  exact List.mem_map.2 ⟨job.node, List.mem_map_of_mem listed, rfl⟩

/-- No need is left without a key. -/
theorem Closed.forall₂_needs (closed : plan.Closed) (keyOf : SpecNode → Text) {needs : List Text}
    (provided : ∀ need ∈ needs, ∃ source ∈ plan.jobs, source.node.hash = need) :
    List.Forall₂ (fun need key => ∃ source ∈ plan.jobs, source.node.hash = need ∧ key = keyOf source.node)
      needs (needs.filterMap fun hash => (plan.keys keyOf).lookup hash) := by
  induction needs with
  | nil => exact .nil
  | cons need rest ih =>
    obtain ⟨source, listed, rfl⟩ := provided need List.mem_cons_self
    rw [List.filterMap_cons, closed.lookup_keys keyOf listed]
    exact .cons ⟨source, listed, rfl, rfl⟩ (ih fun other later => provided other (List.mem_cons_of_mem _ later))

/-- The entry that a platform makes of a job. -/
def entry (plan : JobPlan) (keyOf : SpecNode → Text) (job : PlannedJob) : ShownJob :=
  ⟨keyOf job.node, stageName job.stage, job.needs.filterMap fun hash => (plan.keys keyOf).lookup hash⟩

theorem Closed.shownAs_entries (closed : plan.Closed) (unique : (plan.jobs.map fun job => keyOf job.node).Nodup)
    {order : List PlannedJob} (same : order.Perm plan.jobs) : plan.ShownAs keyOf (order.map (plan.entry keyOf)) := by
  constructor
  case keys_unique =>
    rw [List.map_map]
    exact (same.map fun job => keyOf job.node).nodup_iff.2 unique
  case jobs =>
    refine ⟨order, same, List.forall₂_map_right_iff.2 (List.forall₂_same.2 fun job listed => ?_)⟩
    have planned := same.mem_iff.1 listed
    exact ⟨planned, rfl, rfl, closed.forall₂_needs keyOf (closed.provided job planned)⟩

theorem ShownAs.keys_perm {shown : List ShownJob} (shows : plan.ShownAs keyOf shown) :
    (plan.jobs.map fun job => keyOf job.node).Perm (shown.map ShownJob.key) := by
  obtain ⟨order, same, each⟩ := shows.jobs
  have keys : List.Forall₂ (fun job entry => keyOf job.node = ShownJob.key entry) order shown :=
    each.imp fun _ _ entry => entry.key.symm
  have equal : order.map (fun job => keyOf job.node) = shown.map ShownJob.key := by
    rw [← List.forall₂_eq_eq_eq, List.forall₂_map_left_iff, List.forall₂_map_right_iff]
    exact keys
  rw [← equal]
  exact same.symm.map _

theorem ShownAs.eq_nil_iff {shown : List ShownJob} (shows : plan.ShownAs keyOf shown) :
    shown = [] ↔ plan.jobs = [] := by
  have count := shows.keys_perm.length_eq
  rw [List.length_map, List.length_map] at count
  rw [← List.length_eq_zero_iff, ← count, List.length_eq_zero_iff]

theorem ShownAs.exists_job {shown : List ShownJob} (shows : plan.ShownAs keyOf shown) :
    ∀ entry ∈ shown, ∃ job, plan.Shows keyOf job entry := by
  obtain ⟨order, -, each⟩ := shows.jobs
  clear shows
  induction each with
  | nil => simp
  | cons first _ ih =>
    intro entry listed
    rcases List.mem_cons.1 listed with rfl | later
    · exact ⟨_, first⟩
    · exact ih entry later

theorem ShownAs.stage_mem {shown : List ShownJob} (shows : plan.ShownAs keyOf shown)
    (staged : ∀ job ∈ plan.jobs, job.stage ∈ plan.stages) :
    ∀ entry ∈ shown, entry.stage ∈ plan.stages.map stageName := by
  intro entry listed
  obtain ⟨job, stands⟩ := shows.exists_job entry listed
  rw [stands.stage]
  exact List.mem_map_of_mem (staged job stands.planned)

theorem ShownAs.eq_of_key_eq {shown : List ShownJob} (shows : plan.ShownAs keyOf shown) {left right : PlannedJob}
    (first : left ∈ plan.jobs) (second : right ∈ plan.jobs) (same : keyOf left.node = keyOf right.node) :
    left = right :=
  List.inj_on_of_nodup_map (shows.keys_perm.nodup_iff.2 shows.keys_unique) first second same

/-- The other key of the job that has a key. -/
def rekey (plan : JobPlan) (keyOf other : SpecNode → Text) (key : Text) : Text :=
  ((plan.jobs.find? fun job => keyOf job.node = key).map fun job => other job.node).getD key

theorem ShownAs.rekey_eq {shown : List ShownJob} (shows : plan.ShownAs keyOf shown) (other : SpecNode → Text)
    {job : PlannedJob} (listed : job ∈ plan.jobs) : plan.rekey keyOf other (keyOf job.node) = other job.node := by
  unfold rekey
  cases found : plan.jobs.find? fun source => keyOf source.node = keyOf job.node with
  | none => simpa using List.find?_eq_none.1 found job listed
  | some source =>
    obtain rfl := shows.eq_of_key_eq (List.mem_of_find?_eq_some found) listed (by simpa using List.find?_some found)
    rfl

/-- Listings of one plan show the same jobs, whatever the keys are made of. -/
theorem ShownAs.sameJobGraph (closed : plan.Closed) {left right : List ShownJob} (first : plan.ShownAs keyOf left)
    (second : plan.ShownAs other right) : SameJobGraph (plan.rekey keyOf other) left right := by
  have keyed : ∀ {job}, job ∈ plan.jobs → plan.rekey keyOf other (keyOf job.node) = other job.node :=
    first.rekey_eq other
  have needed : ∀ (need one another : Text),
      (∃ source ∈ plan.jobs, source.node.hash = need ∧ one = keyOf source.node) →
      (∃ source ∈ plan.jobs, source.node.hash = need ∧ another = other source.node) →
      plan.rekey keyOf other one = another := by
    rintro _ _ _ ⟨source, listed, rfl, rfl⟩ ⟨again, known, same, rfl⟩
    obtain rfl := closed.eq_of_hash_eq known listed same
    exact keyed listed
  constructor
  case apart =>
    intro key listed another also same
    obtain ⟨job, planned, rfl⟩ := List.mem_map.1 (first.keys_perm.mem_iff.2 listed)
    obtain ⟨twin, paired, rfl⟩ := List.mem_map.1 (first.keys_perm.mem_iff.2 also)
    rw [keyed planned, keyed paired] at same
    rw [second.eq_of_key_eq planned paired same]
  case jobs =>
    obtain ⟨order, same, ones⟩ := first.jobs
    obtain ⟨across, alike, others⟩ := second.jobs
    obtain ⟨matched, others, perm⟩ := List.perm_comp_forall₂ (same.trans alike.symm) others
    rw [map_eq_of_forall₂ ?_ ones others]
    · exact perm
    · intro job one another shown shownToo
      obtain ⟨key, stage, needs⟩ := another
      rw [ShownJob.renamed, shown.key, keyed shown.planned, ← shownToo.key, shown.stage, ← shownToo.stage,
        map_eq_of_forall₂ needed shown.needs shownToo.needs]

end JobPlan

end BuildPipeline
