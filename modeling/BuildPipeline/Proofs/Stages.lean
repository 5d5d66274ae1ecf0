import BuildPipeline.Proofs.Assembling
import BuildPipeline.Proofs.WholeDoubles

/-! Stages of assembled pipelines against order hints and needs. A job is never
staged before what it needs, but next to it where a step of one is rounded away. -/

namespace BuildPipeline
open Binary64

/-- The order hints of all rules are values of double precision. -/
def CiConfig.HintsAreDoubles (config : CiConfig) : Prop :=
  ∀ rule ∈ config.compileRules, ∀ hint, rule.attributes.orderHint = some hint → hint.IsDouble

section Plan

variable {pipeline : AnnotatedPipeline} {jobs : List PlannedJob} {job other : PlannedJob}

theorem Staged.mem_attributes (staged : Staged pipeline jobs job) :
    (job.node.hash, job.attributes) ∈ pipeline.attributes :=
  mem_of_lookup staged.resolved

/-- Stages are order hints or rounded, so they are doubles when the hints are. -/
theorem Planned.isWhole_stage (planned : Planned pipeline jobs)
    (hints : ∀ entry ∈ pipeline.attributes, IsWhole entry.2.orderHint) (listed : job ∈ jobs) :
    IsWhole job.stage := by
  have staged := planned.staged listed
  rcases staged.reached with same | ⟨source, _, _, same⟩
  · rw [same]
    exact hints _ staged.mem_attributes
  · rw [same]
    exact isWhole_stageAfter source.stage

/-- A need lies a stage below unless the step up from it is lost and neither the
hint nor another need lifts the job. -/
theorem Planned.need_stage_lt_iff (planned : Planned pipeline jobs)
    (hints : ∀ entry ∈ pipeline.attributes, IsWhole entry.2.orderHint)
    (listed : job ∈ jobs) (known : other ∈ jobs) (needed : other.node.hash ∈ job.needs) :
    other.stage < job.stage ↔ StepsUp other.stage ∨ other.stage < job.attributes.orderHint ∨
      ∃ third ∈ jobs, third.node.hash ∈ job.needs ∧ other.stage < third.stage := by
  have staged := planned.staged listed
  have whole := planned.isWhole_stage hints known
  constructor
  · intro below
    rcases staged.reached with same | ⟨third, member, needed, same⟩
    · exact .inr (.inl (same ▸ below))
    · rw [same] at below
      rcases Nat.lt_trichotomy other.stage third.stage with less | equal | more
      · exact .inr (.inr ⟨third, member, needed, less⟩)
      · rw [← equal] at below
        exact .inl ((lt_stageAfter_iff whole).1 below)
      · exact absurd below (Nat.not_lt.2 (stageAfter_le whole more))
  · rintro (steps | hinted | ⟨third, member, needed, lifted⟩)
    · exact Nat.lt_of_lt_of_le ((lt_stageAfter_iff whole).2 steps) (staged.need_le other known needed)
    · exact Nat.lt_of_lt_of_le hinted staged.hint_le
    · have risen := le_stageAfter (planned.isWhole_stage hints member)
      exact Nat.lt_of_lt_of_le lifted (risen.trans (staged.need_le third member needed))

end Plan

namespace LinkedStack

variable {stack : LinkedStack} {config : CiConfig} {options : PruneOptions} {signals : PruneSignals}
  {pipeline : AnnotatedPipeline}

theorem isWhole_hint_of_assemble (made : stack.assemble config options signals = .ok pipeline)
    (doubles : config.HintsAreDoubles) : ∀ entry ∈ pipeline.attributes, IsWhole entry.2.orderHint := by
  intro entry listed
  obtain ⟨_, _, _, attributes⟩ := assemble_spec made
  obtain ⟨node, _, _, resolved⟩ := attributes.exists_node listed
  obtain ⟨rule, member, hint, given, whole⟩ := SpecNode.exists_hint_of_resolveAttributes resolved
  exact Number.isWhole_of_isDouble (doubles rule member hint given) whole

/-- Every job of an assembled pipeline is staged from its order hint on and not
before its needs, and after a need exactly when the stage past the need is
another double or something else lifts the job over it. -/
theorem assembled_stage_past_needs (made : stack.assemble config options signals = .ok pipeline)
    (doubles : config.HintsAreDoubles) :
    ∃ plan, pipeline.plan = .ok plan ∧ ∀ job ∈ plan.jobs,
      job.attributes.orderHint ≤ job.stage ∧
      ∀ need ∈ job.needs, ∃ other ∈ plan.jobs, other.node.hash = need ∧ other.stage ≤ job.stage ∧
        (other.stage < job.stage ↔ StepsUp other.stage ∨ other.stage < job.attributes.orderHint ∨
          ∃ third ∈ plan.jobs, third.node.hash ∈ job.needs ∧ other.stage < third.stage) := by
  obtain ⟨jobs, ran, planned, _⟩ := assembled_plan made
  have hints := isWhole_hint_of_assemble made doubles
  refine ⟨_, ran, fun job member => ?_⟩
  have listed := mem_sortBy.1 member
  have staged := planned.staged listed
  refine ⟨staged.hint_le, fun need needed => ?_⟩
  obtain ⟨other, known, rfl⟩ := staged.provided need needed
  refine ⟨other, mem_sortBy.2 known, rfl, ?_, ?_⟩
  · exact (le_stageAfter (planned.isWhole_stage hints known)).trans (staged.need_le other known needed)
  · simpa only [mem_sortBy] using planned.need_stage_lt_iff hints listed known needed

def pair : LinkedStack where
  specs :=
    let entry (name : Text) (dependencies : List Text) : SpecEntry := ⟨{ name, version := [49] }, dependencies⟩
    ⟨[([97], entry [97] [[98]]), ([98], entry [98] [])], by decide⟩
  roots := [[97]]
  dependencies_known := by decide
  roots_known := by decide

def hintedConfig (hint : Nat) : CiConfig where
  defaults := some { tags := some [[116]], orderHint := some (.finite hint) }

theorem assembled_stage_past_needs_pair :
    ∃ pipeline plan, pair.assemble (hintedConfig (2 ^ 53)) {} {} = .ok pipeline ∧
      pipeline.plan = .ok plan ∧ ∃ job ∈ plan.jobs, ∃ other ∈ plan.jobs,
        other.node.hash ∈ job.needs ∧ ¬ other.stage < job.stage := by
  have doubles : (hintedConfig (2 ^ 53)).HintsAreDoubles := by
    intro rule member hint given
    obtain rfl : rule = ⟨{}, { tags := some [[116]], orderHint := some (.finite (2 ^ 53 : Nat)) }, 0, -1⟩ :=
      List.mem_singleton.1 member
    obtain rfl := Option.some.inj given
    exact ⟨1, 53, by decide +kernel, by decide, by decide, by decide⟩
  have evaluated : ((pair.assemble (hintedConfig (2 ^ 53)) {} {}).toOption.any fun pipeline =>
      pipeline.plan.toOption.any fun plan => plan.jobs.any fun job =>
        job.stage = 2 ^ 53 && !job.needs.isEmpty && plan.jobs.all (·.stage = 2 ^ 53)) = true := by
    decide +kernel
  obtain ⟨pipeline, made, evaluated⟩ := exists_ok_of_any evaluated
  obtain ⟨plan, planned, staged⟩ := assembled_stage_past_needs made doubles
  simp only [planned, Except.toOption, Option.any_some, List.any_eq_true, List.all_eq_true,
    Bool.and_eq_true, decide_eq_true_eq] at evaluated
  obtain ⟨job, listed, ⟨stage, waits⟩, all⟩ := evaluated
  obtain ⟨need, needed⟩ := List.exists_mem_of_ne_nil job.needs (by simpa using waits)
  obtain ⟨other, known, rfl, _⟩ := (staged job listed).2 need needed
  refine ⟨pipeline, plan, made, planned, job, listed, other, known, needed, ?_⟩
  rw [stage, all other known]
  exact Nat.lt_irrefl _

end LinkedStack

end BuildPipeline
