import BuildPipeline.Proofs.Agreement
import BuildPipeline.Proofs.Assembling
import BuildPipeline.Proofs.Cycles
import BuildPipeline.Proofs.Rearranging

/-! One text for every way to write a manifest down. Keys, the order of entries and
the order within an entry leave no trace in what is written for a platform. -/

namespace BuildPipeline

variable {α : Type _}

/-- One outcome, but that each side names the cycle that it came upon. -/
def SameOutcome (left right : Except PipelineError α) : Prop :=
  left = right ∨
    ∃ cycle others, left = .error (.cyclicDependency cycle) ∧ right = .error (.cyclicDependency others)

/-- The same builds under other keys, and the same configuration, both in another order. -/
structure StackManifest.Rearranged (rename : Text → Text) (left right : StackManifest) : Prop where
  stack : Renames rename left.specs right.specs left.roots right.roots
  ci : Option.Rel CiConfig.Rearranged left.ci right.ci

namespace LinkedStack

variable {stack other : LinkedStack} {rename : Text → Text}

/-- What is written alike of agreeing graphs is written alike of renamed stacks. -/
theorem RenamedBy.sameOutcome (renamed : stack.RenamedBy rename other) (plain : stack.PlainVariants)
    (plainOther : other.PlainVariants) (injective : Set.InjOn fingerprint stack.payloads)
    {left right : CiConfig} (same : left.Rearranged right) (options : PruneOptions) (signals : PruneSignals)
    {write writeOther : AnnotatedPipeline → Except PipelineError α}
    (written : ∀ graph twin : PipelineGraph, graph.Agrees twin → ∀ pruning attributes,
      write ⟨graph, pruning, attributes⟩ = writeOther ⟨twin, pruning, attributes⟩) :
    SameOutcome (stack.assemble left options signals >>= write)
      (other.assemble right options signals >>= writeOther) := by
  by_cases acyclic : stack.Acyclic
  · obtain ⟨graph, twin, made, also, agrees⟩ := renamed.exists_agreeing plain plainOther injective acyclic
    have attributes := agrees.resolveAttributes_eq (twin.prune options signals [])
      (SpecNode.resolveAttributes_eq_of_rearranged same.compileRules)
    left
    rw [assemble_of_graph made, assemble_of_graph also, agrees.prune_eq, attributes]
    cases twin.resolveAttributes (twin.prune options signals []) right with
    | error failure => rfl
    | ok attributes => exact written graph twin agrees _ attributes
  · obtain ⟨labels, stopped⟩ := exists_cyclicDependency acyclic
    obtain ⟨others, also⟩ := exists_cyclicDependency fun twin => acyclic (renamed.acyclic_iff.2 twin)
    rw [assemble_of_error stopped, assemble_of_error also]
    exact .inr ⟨labels, others, rfl, rfl⟩

end LinkedStack

namespace StackManifest

variable {left right : StackManifest} {rename : Text → Text}

theorem Rearranged.config (rearranged : left.Rearranged rename right) : left.config.Rearranged right.config :=
  rel_getD rearranged.ci ⟨rfl, .none, .none, .none⟩

/-- Unless payloads collide, a manifest is written for each platform as any
rearrangement of it is, and fails as that does. -/
theorem written_as_rearranged {stack other : LinkedStack} (linked : left.link = .ok stack)
    (again : right.link = .ok other) (plain : ∀ entry ∈ left.specs.entries, entry.2.content.Plain)
    (plainAgain : ∀ entry ∈ right.specs.entries, entry.2.content.Plain)
    (injective : Set.InjOn fingerprint stack.payloads) (rearranged : left.Rearranged rename right)
    (options : PruneOptions) (signals : PruneSignals) (settings : PipelineOptions) :
    SameOutcome (stack.assemble left.config options signals >>= (·.renderGitlab left.config settings))
      (other.assemble right.config options signals >>= (·.renderGitlab right.config settings)) ∧
    SameOutcome (stack.assemble left.config options signals >>= (·.renderGithub left.config settings))
      (other.assemble right.config options signals >>= (·.renderGithub right.config settings)) := by
  obtain ⟨specs, roots⟩ := eq_of_link linked
  obtain ⟨specsAgain, rootsAgain⟩ := eq_of_link again
  have config := rearranged.config
  have renamed : stack.RenamedBy rename other := by
    rw [LinkedStack.RenamedBy, specs, roots, specsAgain, rootsAgain]
    exact rearranged.stack
  rw [← specs] at plain
  rw [← specsAgain] at plainAgain
  constructor
  · refine renamed.sameOutcome plain plainAgain injective config options signals fun graph twin agrees _ _ => ?_
    simp only [AnnotatedPipeline.renderGitlab, agrees.plan_eq, config.gitlabDocument_eq]
  · refine renamed.sameOutcome plain plainAgain injective config options signals fun graph twin agrees _ _ => ?_
    simp only [AnnotatedPipeline.renderGithub, agrees.plan_eq, config.githubDocument_eq]

end StackManifest

namespace Reordered

def tool : SpecContent := { name := "tool", version := "1" }

def app (variants : Variants) : SpecContent := { name := "app", version := "2", variants := some variants }

def variants : Variants :=
  ⟨[("lang", .choices ["f", "c"]), ("mpi", .switch true)], by decide +kernel⟩

def otherVariants : Variants :=
  ⟨[("mpi", .switch true), ("lang", .choices ["c", "f"])], by decide +kernel⟩

def config (tags : List Text) : CiConfig where
  defaults := some { orderHint := some (.ofNat 1) }
  rules := some [{ attributes := { tags := some tags } }]

def first : StackManifest where
  name := "stack"
  roots := ["a"]
  specs := ⟨[("a", ⟨app variants, ["t", "t"]⟩), ("t", ⟨tool, []⟩)], by decide +kernel⟩
  ci := some (config ["big", "linux"])

/-- The first manifest under other keys and in another order. -/
def second : StackManifest where
  name := "stack"
  roots := ["app", "app"]
  specs := ⟨[("tool", ⟨tool, []⟩), ("app", ⟨app otherVariants, ["tool"]⟩)], by decide +kernel⟩
  ci := some (config ["linux", "big"])

def rename (key : Text) : Text :=
  if key = "a" then "app" else "tool"

theorem app_alike : (app variants).Alike (app otherVariants) := by
  refine ⟨rfl, rfl, fun key => ?_, rfl, rfl, rfl⟩
  change Option.Rel _ (variants.entries.lookup key) (otherVariants.entries.lookup key)
  simp only [variants, otherVariants, lookup_cons_eq]
  by_cases lang : key = Text.ofString "lang"
  · subst lang
    exact .some (List.Perm.swap _ _ _)
  · by_cases mpi : key = Text.ofString "mpi"
    · simp only [mpi, if_true]
      exact .some rfl
    · simp only [lang, mpi, if_false]
      exact .none

theorem renames : Renames rename first.specs second.specs first.roots second.roots := by
  constructor
  case keys =>
    have apart : ∀ key ∈ first.specs.keys, ∀ other ∈ first.specs.keys,
        rename key = rename other → key = other := by decide +kernel
    refine ⟨?_, fun key listed other also => apart key listed other also, ?_⟩
    · exact (by decide +kernel : ∀ key ∈ first.specs.keys, rename key ∈ second.specs.keys)
    · exact (by decide +kernel : ∀ key ∈ second.specs.keys, ∃ other ∈ first.specs.keys, rename other = key)
  case entries =>
    intro key entry other found again
    have listed := Table.get?_eq_some_iff.1 found
    simp only [first, List.mem_cons, Prod.mk.injEq, List.not_mem_nil, or_false] at listed
    rcases listed with ⟨rfl, rfl⟩ | ⟨rfl, rfl⟩
    · have twin : second.specs.get? (rename "a") = some ⟨app otherVariants, ["tool"]⟩ := by decide +kernel
      obtain rfl := Option.some.inj (twin.symm.trans again)
      have same : rename "t" = "tool" := by decide +kernel
      exact ⟨app_alike, fun key => by simp [same, eq_comm]⟩
    · have twin : second.specs.get? (rename "t") = some ⟨tool, []⟩ := by decide +kernel
      obtain rfl := Option.some.inj (twin.symm.trans again)
      exact ⟨⟨rfl, rfl, fun _ => .none, rfl, rfl, rfl⟩, by simp⟩
  case roots =>
    simp [first, second, rename, eq_comm]

theorem rearranged : first.Rearranged rename second := by
  have tags : RuleAttributes.Rearranged { tags := some ["big", "linux"] } { tags := some ["linux", "big"] } :=
    ⟨rfl, .some (.swap _ _ _), .none⟩
  refine ⟨renames, .some ⟨rfl, .some ⟨⟨rfl, .none, .none⟩, rfl⟩, .some (.cons ⟨.none, tags⟩ .nil), .none⟩⟩

def stack : LinkedStack where
  specs := first.specs
  roots := first.roots
  dependencies_known := by decide +kernel
  roots_known := by decide +kernel

def other : LinkedStack where
  specs := second.specs
  roots := second.roots
  dependencies_known := by decide +kernel
  roots_known := by decide +kernel

theorem link_first : first.link = .ok stack :=
  dif_pos (by decide +kernel)

theorem link_second : second.link = .ok other :=
  dif_pos (by decide +kernel)

/-- The texts of both builds, of which the first one holds the fingerprint of the second. -/
theorem payload_eq_or_eq {payload : Text} (listed : payload ∈ stack.payloads) :
    payload = (app variants).payload [fingerprint (tool.payload []), fingerprint (tool.payload [])] ∨
      payload = tool.payload [] := by
  have leaf : stack.Unfolds "t" (.build tool []) := .leaf (by decide +kernel)
  obtain ⟨key, tree, _, unfolds, rfl⟩ := listed
  cases unfolds with
  | @entry _ entry below found unfolds =>
    have listed := Table.get?_eq_some_iff.1 found
    simp only [stack, first, List.mem_cons, Prod.mk.injEq, List.not_mem_nil, or_false] at listed
    rcases listed with ⟨rfl, rfl⟩ | ⟨rfl, rfl⟩
    · left
      have below := (unfolds "t" (by decide +kernel)).unique leaf
      simp [SpecTree.payload, SpecTree.hash, below]
    · right
      simp [SpecTree.payload]

theorem injOn_payloads : Set.InjOn fingerprint stack.payloads := by
  have apart : fingerprint ((app variants).payload [fingerprint (tool.payload []), fingerprint (tool.payload [])]) ≠
      fingerprint (tool.payload []) := by decide +kernel
  exact (Set.injOn_pair.2 fun same => absurd same apart).mono fun payload listed => payload_eq_or_eq listed

def settings : PipelineOptions where
  platform := "gitlab"
  outputPath := "out"
  artifactsRoot := "scratch"

end Reordered

theorem StackManifest.written_as_rearranged_twoWays :
    (Reordered.stack.assemble Reordered.first.config {} {} >>=
        (·.renderGitlab Reordered.first.config Reordered.settings)).toOption.isSome = true ∧
    SameOutcome
      (Reordered.stack.assemble Reordered.first.config {} {} >>=
        (·.renderGitlab Reordered.first.config Reordered.settings))
      (Reordered.other.assemble Reordered.second.config {} {} >>=
        (·.renderGitlab Reordered.second.config Reordered.settings)) ∧
    SameOutcome
      (Reordered.stack.assemble Reordered.first.config {} {} >>=
        (·.renderGithub Reordered.first.config Reordered.settings))
      (Reordered.other.assemble Reordered.second.config {} {} >>=
        (·.renderGithub Reordered.second.config Reordered.settings)) :=
  ⟨by decide +kernel,
    StackManifest.written_as_rearranged Reordered.link_first Reordered.link_second
      (Reordered.first.plain_of_keyless (by decide +kernel)) (Reordered.second.plain_of_keyless (by decide +kernel))
      Reordered.injOn_payloads Reordered.rearranged {} {} Reordered.settings⟩

end BuildPipeline
