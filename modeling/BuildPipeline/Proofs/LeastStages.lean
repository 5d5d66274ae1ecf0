import BuildPipeline.Proofs.Stages
import Mathlib.Order.Bounds.Basic

/-! While no step is rounded, stages are lengths: the stage of a job is the most
that a chain of needs asks for, and no smaller stages would do. -/

namespace BuildPipeline

section Plan

variable {pipeline : AnnotatedPipeline} {jobs : List PlannedJob} {room : Nat}

/-- Each job lifts the highest stage by one at most. -/
theorem Planned.stage_lt (planned : Planned pipeline jobs)
    (hints : ∀ entry ∈ pipeline.attributes, entry.2.orderHint + room ≤ 2 ^ 53)
    (fits : jobs.length ≤ room) : ∀ job ∈ jobs, job.stage + room < 2 ^ 53 + jobs.length := by
  induction planned with
  | nil => simp
  | @snoc jobs last planned fresh staged ih =>
    rw [List.length_append, List.length_singleton] at fits ⊢
    have below := ih (by omega)
    intro job member
    rcases List.mem_append.1 member with earlier | final
    · have bound := below job earlier
      omega
    · obtain rfl := List.mem_singleton.1 final
      rcases staged.reached with same | ⟨other, known, _, same⟩
      · have bound : job.attributes.orderHint + room ≤ 2 ^ 53 := hints _ staged.mem_attributes
        omega
      · have bound := below other known
        rw [stageAfter_of_lt (by omega)] at same
        omega

end Plan

namespace JobPlan

variable {plan : JobPlan}

/-- A chain of needs from a job down to another, with its number of steps. -/
inductive Chain (plan : JobPlan) : PlannedJob → Nat → PlannedJob → Prop
  | here {job : PlannedJob} (listed : job ∈ plan.jobs) : Chain plan job 0 job
  | step {job next last : PlannedJob} {length : Nat} (listed : job ∈ plan.jobs)
      (needed : next.node.hash ∈ job.needs) (rest : Chain plan next length last) :
      Chain plan job (length + 1) last

/-- An assignment of stages that no order hint and no need contradicts. -/
def Respects (plan : JobPlan) (stage : PlannedJob → Nat) : Prop :=
  ∀ job ∈ plan.jobs, job.attributes.orderHint ≤ stage job ∧
    ∀ other ∈ plan.jobs, other.node.hash ∈ job.needs → stage other < stage job

def Tight (plan : JobPlan) : Prop :=
  ∀ job ∈ plan.jobs, job.stage = job.attributes.orderHint ∨
    ∃ other ∈ plan.jobs, other.node.hash ∈ job.needs ∧ job.stage = other.stage + 1

theorem Chain.mem_jobs {job last : PlannedJob} {length : Nat} (chain : plan.Chain job length last) :
    job ∈ plan.jobs := by
  cases chain with
  | here listed => exact listed
  | step listed _ _ => exact listed

theorem Chain.le_stage {stage : PlannedJob → Nat} (respects : plan.Respects stage) {job last : PlannedJob}
    {length : Nat} (chain : plan.Chain job length last) : last.attributes.orderHint + length ≤ stage job := by
  induction chain with
  | here listed => exact (respects _ listed).1
  | step listed needed rest ih =>
    have below := (respects _ listed).2 _ rest.mem_jobs needed
    omega

/-- Going down from a job to what its stage came from ends at a hint. -/
theorem Tight.exists_chain (tight : plan.Tight) {job : PlannedJob} (listed : job ∈ plan.jobs) :
    ∃ last length, plan.Chain job length last ∧ job.stage = last.attributes.orderHint + length := by
  induction stage : job.stage using Nat.strong_induction_on generalizing job with
  | _ stage ih =>
    subst stage
    rcases tight job listed with same | ⟨other, known, needed, same⟩
    · exact ⟨job, 0, .here listed, same⟩
    · obtain ⟨last, length, chain, reached⟩ := ih other.stage (by omega) known rfl
      exact ⟨last, length + 1, .step listed needed chain, by omega⟩

theorem isGreatest_stage (respects : plan.Respects PlannedJob.stage) (tight : plan.Tight) {job : PlannedJob}
    (listed : job ∈ plan.jobs) :
    IsGreatest {value | ∃ last length, plan.Chain job length last ∧
      value = last.attributes.orderHint + length} job.stage := by
  refine ⟨tight.exists_chain listed, ?_⟩
  rintro value ⟨last, length, chain, rfl⟩
  exact chain.le_stage respects

theorem Tight.stage_le (tight : plan.Tight) {stage : PlannedJob → Nat} (respects : plan.Respects stage)
    {job : PlannedJob} (listed : job ∈ plan.jobs) : job.stage ≤ stage job := by
  obtain ⟨last, length, chain, reached⟩ := tight.exists_chain listed
  rw [reached]
  exact chain.le_stage respects

end JobPlan

theorem PlannedJob.le_ordered : Ordered PlannedJob.le := by
  have keyed := natLe_ordered.lexicographic
    (by intro a b forward backward; simp only [decide_eq_true_eq] at forward backward; omega)
    (SpecNode.le_ordered.onKey PlannedJob.node) PlannedJob.stage
  have same : PlannedJob.le = fun left right : PlannedJob =>
      if left.stage = right.stage then left.node.le right.node else decide (left.stage ≤ right.stage) := by
    funext left right
    unfold PlannedJob.le
    split
    · rfl
    next apart => simp [Nat.lt_iff_le_and_ne, apart]
  rwa [same]

theorem PlannedJob.stage_le_of_le {left right : PlannedJob} (before : left.le right = true) :
    left.stage ≤ right.stage := by
  unfold PlannedJob.le at before
  split at before
  next same => exact Nat.le_of_eq same
  next => exact Nat.le_of_lt (by simpa using before)

theorem mem_stagesOf {jobs : List PlannedJob} {stage : Nat} :
    stage ∈ stagesOf jobs ↔ ∃ job ∈ jobs, job.stage = stage := by
  simp [stagesOf]

theorem pairwise_stagesOf (jobs : List PlannedJob) : (stagesOf jobs).Pairwise (· < ·) := by
  have ascending : (stagesOf jobs).Pairwise (· ≤ ·) :=
    (natLe_ordered.sorted (distinct (jobs.map PlannedJob.stage))).imp of_decide_eq_true
  have once : (stagesOf jobs).Nodup := (sortBy_perm _ _).nodup_iff.2 (nodup_distinct _)
  exact (ascending.and once).imp fun both => Nat.lt_of_le_of_ne both.1 both.2

/-- Jobs in order of their stages come after all that they need. -/
theorem JobPlan.needs_before {plan : JobPlan} (respects : plan.Respects PlannedJob.stage)
    (sorted : plan.jobs.Pairwise (fun left right => left.le right = true))
    (provided : ∀ job ∈ plan.jobs, ∀ need ∈ job.needs, ∃ other ∈ plan.jobs, other.node.hash = need)
    {before after : List PlannedJob} {job : PlannedJob} (split : plan.jobs = before ++ job :: after) :
    ∀ need ∈ job.needs, ∃ other ∈ before, other.node.hash = need := by
  intro need needed
  have member : job ∈ plan.jobs := by simp [split]
  obtain ⟨other, known, rfl⟩ := provided job member need needed
  have below := (respects job member).2 other known needed
  rw [split, List.mem_append] at known
  rcases known with earlier | later
  · exact ⟨other, earlier, rfl⟩
  · rw [split, List.pairwise_append, List.pairwise_cons] at sorted
    rcases List.mem_cons.1 later with rfl | behind
    · exact absurd below (Nat.lt_irrefl _)
    · exact absurd (PlannedJob.stage_le_of_le (sorted.2.1.1 other behind)) (Nat.not_le.2 below)

namespace LinkedStack

variable {stack : LinkedStack} {config : CiConfig} {options : PruneOptions} {signals : PruneSignals}
  {pipeline : AnnotatedPipeline}

/-- As long as the hints leave room for one step per kept build below 2^53, the
stages of an assembled pipeline are the least that respect all hints and needs,
and its jobs are listed in an order in which they can run. -/
theorem assembled_stages_least (made : stack.assemble config options signals = .ok pipeline)
    (room : ∀ entry ∈ pipeline.attributes,
      entry.2.orderHint + (pipeline.graph.keptNodes pipeline.pruning).length ≤ 2 ^ 53) :
    ∃ plan, pipeline.plan = .ok plan ∧
      (plan.jobs.map PlannedJob.node).Perm (pipeline.graph.keptNodes pipeline.pruning) ∧
      (∀ job ∈ plan.jobs, IsGreatest {value | ∃ last length, plan.Chain job length last ∧
        value = last.attributes.orderHint + length} job.stage) ∧
      plan.Respects PlannedJob.stage ∧
      (∀ stage, plan.Respects stage → ∀ job ∈ plan.jobs, job.stage ≤ stage job) ∧
      plan.stages.Pairwise (· < ·) ∧
      (∀ stage, stage ∈ plan.stages ↔ ∃ job ∈ plan.jobs, job.stage = stage) ∧
      plan.jobs.Pairwise (fun left right => left.le right = true) ∧
      ∀ before job after, plan.jobs = before ++ job :: after →
        ∀ need ∈ job.needs, ∃ other ∈ before, other.node.hash = need := by
  obtain ⟨jobs, ran, planned, nodes⟩ := assembled_plan made
  have sorted := PlannedJob.le_ordered.sorted jobs
  have small : ∀ job ∈ jobs, job.stage < 2 ^ 53 := by
    intro job listed
    have count := nodes.length_eq
    rw [List.length_map] at count
    have bound := planned.stage_lt room (Nat.le_of_eq count) job listed
    omega
  set plan : JobPlan := ⟨sortBy PlannedJob.le jobs, stagesOf (sortBy PlannedJob.le jobs)⟩ with shape
  have listed : ∀ {job}, job ∈ plan.jobs ↔ job ∈ jobs := mem_sortBy
  have respects : plan.Respects PlannedJob.stage := by
    intro job member
    have staged := planned.staged (listed.1 member)
    refine ⟨staged.hint_le, fun other known needed => ?_⟩
    have past := staged.need_le other (listed.1 known) needed
    rwa [stageAfter_of_lt (small other (listed.1 known))] at past
  have tight : plan.Tight := by
    intro job member
    refine (planned.staged (listed.1 member)).reached.imp_right ?_
    rintro ⟨other, known, needed, same⟩
    exact ⟨other, listed.2 known, needed, same.trans (stageAfter_of_lt (small other known))⟩
  have provided : ∀ job ∈ plan.jobs, ∀ need ∈ job.needs, ∃ other ∈ plan.jobs, other.node.hash = need := by
    intro job member need needed
    obtain ⟨other, known, same⟩ := (planned.staged (listed.1 member)).provided need needed
    exact ⟨other, listed.2 known, same⟩
  exact ⟨plan, ran, ((sortBy_perm _ _).map _).trans nodes, fun job => JobPlan.isGreatest_stage respects tight,
    respects, fun stage given job => tight.stage_le given, pairwise_stagesOf _, fun stage => mem_stagesOf,
    sorted, fun before job after split => JobPlan.needs_before respects sorted provided split⟩

theorem assembled_stages_least_pair :
    ∃ pipeline plan, pair.assemble (hintedConfig 1) {} {} = .ok pipeline ∧
      pipeline.plan = .ok plan ∧ plan.stages = [1, 2] ∧ plan.Respects PlannedJob.stage := by
  have evaluated : ((pair.assemble (hintedConfig 1) {} {}).toOption.any fun pipeline =>
      pipeline.attributes.all (fun entry =>
        entry.2.orderHint + (pipeline.graph.keptNodes pipeline.pruning).length ≤ 2 ^ 53) &&
      pipeline.plan.toOption.any fun plan => plan.stages = [1, 2]) = true := by
    decide +kernel
  obtain ⟨pipeline, made, evaluated⟩ := exists_ok_of_any evaluated
  obtain ⟨small, listed⟩ := Bool.and_eq_true_iff.1 evaluated
  obtain ⟨plan, planned, _, _, respects, _⟩ :=
    assembled_stages_least made fun entry member => of_decide_eq_true (List.all_eq_true.1 small entry member)
  rw [planned] at listed
  exact ⟨pipeline, plan, made, planned, of_decide_eq_true listed, respects⟩

end LinkedStack

end BuildPipeline
