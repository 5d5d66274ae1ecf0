import BuildPipeline.Platform.Github
import BuildPipeline.Platform.Gitlab
import BuildPipeline.Proofs.Tables

/-! Configurations written in another order: the variables of jobs and rules, the
variants that a rule asks for, the tags that it sets. Jobs get the same attributes
from both, and both give the same documents. -/

namespace BuildPipeline

variable {α : Type _}

def Table.Rearranged (left right : Table α) : Prop :=
  left.entries.Perm right.entries

structure RuleMatch.Rearranged (left right : RuleMatch) : Prop where
  rest : { left with variants := none } = { right with variants := none }
  variants : Option.Rel Table.Rearranged left.variants right.variants

structure RuleAttributes.Rearranged (left right : RuleAttributes) : Prop where
  rest : { left with tags := none, vars := none } = { right with tags := none, vars := none }
  tags : Option.Rel List.Perm left.tags right.tags
  vars : Option.Rel Table.Rearranged left.vars right.vars

structure RuleConfig.Rearranged (left right : RuleConfig) : Prop where
  predicate : Option.Rel RuleMatch.Rearranged left.predicate right.predicate
  attributes : left.attributes.Rearranged right.attributes

/-- Rules stay in their order, which decides between them. The tags of the defaults
stay in theirs too: service jobs list them as they are written. -/
structure CiConfig.Rearranged (left right : CiConfig) : Prop where
  rest : { left with defaults := none, rules := none, vars := none } =
    { right with defaults := none, rules := none, vars := none }
  defaults : Option.Rel (fun first second => first.Rearranged second ∧ first.tags = second.tags)
    left.defaults right.defaults
  rules : Option.Rel (List.Forall₂ RuleConfig.Rearranged) left.rules right.rules
  vars : Option.Rel Table.Rearranged left.vars right.vars

/-- Defaults that are related stand in for what is absent on both sides. -/
theorem rel_getD {β : Type _} {related : α → β → Prop} {first : Option α} {second : Option β}
    (same : Option.Rel related first second) {value : α} {other : β} (fallback : related value other) :
    related (first.getD value) (second.getD other) := by
  cases same with
  | none => exact fallback
  | some same => exact same

theorem rel_or {β : Type _} {related : α → β → Prop} {first above : Option α} {second below : Option β}
    (same : Option.Rel related first second) (also : Option.Rel related above below) :
    Option.Rel related (first.or above) (second.or below) := by
  cases same with
  | none => exact also
  | some same => exact .some same

namespace Table

theorem Rearranged.get?_eq {left right : Table α} (same : left.Rearranged right) (key : Text) :
    left.get? key = right.get? key :=
  lookup_eq_of_perm left.unique same key

/-- An absent table is an empty one. -/
theorem Rearranged.getD {left right : Option (Table α)} (same : Option.Rel Rearranged left right) :
    (left.getD empty).Rearranged (right.getD empty) :=
  rel_getD same (List.Perm.refl _)

end Table

namespace RuleMatch.Rearranged

variable {left right : RuleMatch}

theorem constraintCount_eq (same : left.Rearranged right) : left.constraintCount = right.constraintCount := by
  have size : (left.variants.getD Table.empty).size = (right.variants.getD Table.empty).size :=
    (Table.Rearranged.getD same.variants).length_eq
  obtain ⟨package, version, compiler, arch, _⟩ := RuleMatch.mk.inj same.rest
  simp only [constraintCount, package, version, compiler, arch, size]

theorem satisfies_eq (same : left.Rearranged right) (node : SpecNode) :
    node.satisfies left = node.satisfies right := by
  have every := List.Perm.all_eq (f := fun entry => node.variantMatches entry.1 entry.2)
    (Table.Rearranged.getD same.variants)
  obtain ⟨package, version, compiler, arch, _⟩ := RuleMatch.mk.inj same.rest
  simp only [SpecNode.satisfies, package, version, compiler, arch, every]

end RuleMatch.Rearranged

namespace AttributeRule

/-- Rules of one rank that match the same builds and set the same on them. -/
structure Rearranged (left right : AttributeRule) : Prop where
  satisfied : ∀ node : SpecNode, node.satisfies left.predicate = node.satisfies right.predicate
  attributes : left.attributes.Rearranged right.attributes
  specificity : left.specificity = right.specificity
  index : left.index = right.index

theorem Rearranged.sortRules {rules others : List AttributeRule} (same : List.Forall₂ Rearranged rules others) :
    List.Forall₂ Rearranged (sortRules rules) (sortRules others) := by
  refine forall₂_sortBy (fun a b c d first second => ?_) same
  simp only [precedenceLe, first.specificity, first.index, second.specificity, second.index]

end AttributeRule

namespace CiConfig.Rearranged

variable {left right : CiConfig}

theorem defaultRules (same : left.Rearranged right) :
    List.Forall₂ AttributeRule.Rearranged left.defaultRules right.defaultRules := by
  have defaults := same.defaults
  unfold CiConfig.defaultRules
  generalize left.defaults = attributes, right.defaults = others at defaults
  cases defaults with
  | none => exact .nil
  | some attributes => exact .cons ⟨fun _ => rfl, attributes.1, rfl, rfl⟩ .nil

theorem declaredRules (same : left.Rearranged right) :
    List.Forall₂ AttributeRule.Rearranged left.declaredRules right.declaredRules := by
  have listed : List.Forall₂ RuleConfig.Rearranged (left.rules.getD []) (right.rules.getD []) :=
    rel_getD same.rules .nil
  unfold CiConfig.declaredRules
  generalize left.rules.getD [] = rules, right.rules.getD [] = others at listed
  generalize 0 = start
  induction listed generalizing start with
  | nil => exact .nil
  | @cons rule other _ _ head _ ih =>
    have predicate : (rule.predicate.getD {}).Rearranged (other.predicate.getD {}) :=
      rel_getD head.predicate ⟨rfl, .none⟩
    exact .cons ⟨predicate.satisfies_eq, head.attributes, predicate.constraintCount_eq, rfl⟩ (ih (start + 1))

theorem compileRules (same : left.Rearranged right) :
    List.Forall₂ AttributeRule.Rearranged left.compileRules right.compileRules :=
  AttributeRule.Rearranged.sortRules (List.rel_append same.defaultRules same.declaredRules)

end CiConfig.Rearranged

namespace AttributeDraft

/-- Drafts that the same job is finished from. -/
structure Alike (left right : AttributeDraft) : Prop where
  tags : Option.Rel List.Perm left.tags right.tags
  vars : ∀ key, left.vars.get? key = right.vars.get? key
  orderHint : left.orderHint = right.orderHint
  allowFailure : left.allowFailure = right.allowFailure

variable {left right : AttributeDraft}

theorem Alike.apply (alike : left.Alike right) {attributes others : RuleAttributes}
    (same : attributes.Rearranged others) :
    (AttributeDraft.apply left attributes).Alike (AttributeDraft.apply right others) := by
  obtain ⟨_, _, orderHint, allowFailure⟩ := RuleAttributes.mk.inj same.rest
  constructor
  case tags =>
    refine rel_or ?_ alike.tags
    have tags := same.tags
    generalize attributes.tags = given, others.tags = written at tags
    cases tags with
    | none => exact .none
    | some tags => exact .some (tags.filter _)
  case vars =>
    intro key
    simp only [AttributeDraft.apply, Table.get?_merge, alike.vars, (Table.Rearranged.getD same.vars).get?_eq]
  case orderHint => simp only [AttributeDraft.apply, orderHint, alike.orderHint]
  case allowFailure => simp only [AttributeDraft.apply, allowFailure, alike.allowFailure]

theorem Alike.foldl_apply (alike : left.Alike right) {rules others : List AttributeRule}
    (same : List.Forall₂ AttributeRule.Rearranged rules others) :
    (rules.foldl (fun draft rule => AttributeDraft.apply draft rule.attributes) left).Alike
      (others.foldl (fun draft rule => AttributeDraft.apply draft rule.attributes) right) := by
  induction same generalizing left right with
  | nil => exact alike
  | cons head _ ih => exact ih (alike.apply head.attributes)

theorem Alike.finish_eq (alike : left.Alike right) (node : SpecNode) : left.finish node = right.finish node := by
  have tags : (left.tags.getD []).Perm (right.tags.getD []) := rel_getD alike.tags .nil
  have sorted : sortTexts (distinct (left.tags.getD [])) = sortTexts (distinct (right.tags.getD [])) :=
    dependencySet_eq_iff.2 fun _ => tags.mem_iff
  simp only [finish, tags.isEmpty_eq, sorted, Table.sorted_eq_of_get?_eq alike.vars, alike.orderHint,
    alike.allowFailure]

end AttributeDraft

theorem SpecNode.resolveAttributes_eq_of_rearranged {rules others : List AttributeRule}
    (same : List.Forall₂ AttributeRule.Rearranged rules others) (node : SpecNode) :
    node.resolveAttributes rules = node.resolveAttributes others := by
  have matching : List.Forall₂ AttributeRule.Rearranged (node.matchingRules (sortRules rules))
      (node.matchingRules (sortRules others)) :=
    List.rel_filter (fun _ _ related => Bool.eq_iff_iff.1 (related.satisfied node))
      (AttributeRule.Rearranged.sortRules same)
  have start : AttributeDraft.Alike { vars := node.builtinVariables } { vars := node.builtinVariables } :=
    ⟨.none, fun _ => rfl, rfl, rfl⟩
  exact (start.foldl_apply matching).finish_eq node

namespace CiConfig.Rearranged

variable {left right : CiConfig}

theorem serviceTags_eq (same : left.Rearranged right) : left.serviceTags = right.serviceTags := by
  have defaults := same.defaults
  unfold serviceTags
  generalize left.defaults = attributes, right.defaults = others at defaults
  cases defaults with
  | none => rfl
  | some attributes => simp only [Option.bind_some, attributes.2]

theorem pipelineVariables_eq (same : left.Rearranged right) (options : PipelineOptions) :
    pipelineVariables left options = pipelineVariables right options := by
  refine Table.sorted_eq_of_get?_eq fun key => ?_
  rw [Table.get?_merge, Table.get?_merge, (Table.Rearranged.getD same.vars).get?_eq]

theorem imageName?_eq (same : left.Rearranged right) : left.imageName? = right.imageName? := by
  obtain ⟨_, _, _, _, _, image, _⟩ := CiConfig.mk.inj same.rest
  rw [imageName?, imageName?, image]

theorem gitlabBuildJob_eq (same : left.Rearranged right) : Gitlab.buildJob left = Gitlab.buildJob right := by
  obtain ⟨_, _, _, script, beforeScript, _⟩ := CiConfig.mk.inj same.rest
  funext names job
  simp only [Gitlab.buildJob, Gitlab.imageMember, script, beforeScript, same.imageName?_eq]

theorem fixedMembers_eq (same : left.Rearranged right) : Gitlab.fixedMembers left = Gitlab.fixedMembers right := by
  obtain ⟨_, _, _, _, _, _, rebuildIndex, indexScript, _⟩ := CiConfig.mk.inj same.rest
  have tags : Gitlab.serviceTagsMember left = Gitlab.serviceTagsMember right := by
    rw [Gitlab.serviceTagsMember, Gitlab.serviceTagsMember, same.serviceTags_eq]
  have rebuilds : Gitlab.rebuildsIndex left = Gitlab.rebuildsIndex right := by
    rw [Gitlab.rebuildsIndex, Gitlab.rebuildsIndex, rebuildIndex]
  have index : Gitlab.indexJob left = Gitlab.indexJob right := by
    simp only [Gitlab.indexJob, Gitlab.imageMember, same.imageName?_eq, tags, indexScript]
  have empty : Gitlab.emptyMembers left = Gitlab.emptyMembers right := by
    simp only [Gitlab.emptyMembers, Gitlab.emptyJob, tags]
  funext options plan
  rw [Gitlab.fixedMembers, Gitlab.fixedMembers, empty, Gitlab.planMembers, Gitlab.planMembers, rebuilds, index,
    same.pipelineVariables_eq]

theorem gitlabDocument_eq (same : left.Rearranged right) : Gitlab.document left = Gitlab.document right := by
  funext options plan
  rw [Gitlab.document, Gitlab.document, same.gitlabBuildJob_eq, same.fixedMembers_eq]

theorem githubBuildJob_eq (same : left.Rearranged right) : Github.buildJob left = Github.buildJob right := by
  obtain ⟨_, _, _, script, beforeScript, _⟩ := CiConfig.mk.inj same.rest
  funext ids job
  simp only [Github.buildJob, Github.script, script, beforeScript, same.imageName?_eq]

theorem githubDocument_eq (same : left.Rearranged right) : Github.document left = Github.document right := by
  funext options plan
  rw [Github.document, Github.document, same.githubBuildJob_eq, Github.emptyJob, Github.emptyJob,
    same.serviceTags_eq, same.pipelineVariables_eq]

end CiConfig.Rearranged

end BuildPipeline
