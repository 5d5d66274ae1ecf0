import BuildPipeline.Proofs.Tables
import BuildPipeline.Rule.Attributes
import Mathlib.Algebra.Order.Ring.Rat
import Mathlib.Data.Prod.Lex
import Mathlib.Order.WithBot

/-! Which rule decides an attribute. Rules are applied in order of precedence, each
over what the ones below it set, so every field and every variable is left with what
the highest-ranked rule that sets it says. -/

namespace BuildPipeline

/-- The number of constraints, and then the place among the declared rules. The
defaults rank below all of them. -/
abbrev RuleRank := WithBot (Nat ×ₗ Nat)

namespace CiConfig

variable {α : Type _}

/-- What a configuration sets for a node, with the rank it has. -/
inductive Sets (config : CiConfig) (node : SpecNode) : RuleRank → RuleAttributes → Prop
  | defaults {attributes : RuleAttributes} (given : config.defaults = some attributes) :
      Sets config node ⊥ attributes
  | declared {index : Nat} {rule : RuleConfig} (listed : (config.rules.getD [])[index]? = some rule)
      (matching : node.satisfies (rule.predicate.getD {}) = true) :
      Sets config node ((toLex ((rule.predicate.getD {}).constraintCount, index) : Nat ×ₗ Nat) : RuleRank)
        rule.attributes

/-- The value of a field at the highest rank that has one, if any has. -/
def Selects (config : CiConfig) (node : SpecNode) (field : RuleAttributes → Option α) : Option α → Prop
  | none => ∀ rank attributes, config.Sets node rank attributes → field attributes = none
  | some value => ∃ rank attributes, config.Sets node rank attributes ∧ field attributes = some value ∧
      ∀ other others, config.Sets node other others → (field others).isSome → other ≤ rank

end CiConfig

def RuleAttributes.valueOf? (key : Text) (attributes : RuleAttributes) : Option Text :=
  attributes.vars.bind fun vars => vars.get? key

/-- A choice for every field and every variable. -/
structure AttributeSelection where
  tags : Option (List Text)
  vars : Text → Option Text
  orderHint : Option Number
  allowFailure : Option Bool

/-- Each choice is made by rank, apart from all others. -/
structure CiConfig.SelectsAll (config : CiConfig) (node : SpecNode) (selection : AttributeSelection) : Prop where
  tags : config.Selects node RuleAttributes.tags selection.tags
  vars : ∀ key, config.Selects node (RuleAttributes.valueOf? key) (selection.vars key)
  orderHint : config.Selects node RuleAttributes.orderHint selection.orderHint
  allowFailure : config.Selects node RuleAttributes.allowFailure selection.allowFailure

namespace AttributeSelection

variable (selection : AttributeSelection)

/-- Without tags, or with none that a build may use. -/
def LacksTags : Prop :=
  ∀ tags, selection.tags = some tags → ∀ tag ∈ tags, tag ∈ reservedTags

/-- Without an order hint, or with one that is no whole number from zero on. -/
def LacksOrderHint : Prop :=
  ∀ hint, selection.orderHint = some hint → hint.isInteger = false ∨ hint.lt (.finite 0) = true

/-- The attributes that a node gets from a choice. -/
structure Gives (node : SpecNode) (attributes : JobAttributes) : Prop where
  sorted : attributes.tags.Pairwise (textLe · · = true)
  unique : attributes.tags.Nodup
  tags : ∀ tag, tag ∈ attributes.tags ↔ tag ∈ selection.tags.getD [] ∧ tag ∉ reservedTags
  vars : ∀ key, attributes.vars.get? key =
    if key = backingKey then none else (selection.vars key).or (node.builtinVariables.get? key)
  orderHint : selection.orderHint = some (.finite attributes.orderHint)
  allowFailure : attributes.allowFailure = selection.allowFailure.getD false

/-- The outcome for a node: its attributes, or the first of the required ones that is lacking. -/
structure Settles (node : SpecNode) (outcome : Except PipelineError JobAttributes) : Prop where
  lacksTags : outcome = .error (.missingAttribute node.hash node.label .tags) ↔ selection.LacksTags
  lacksOrderHint : outcome = .error (.missingAttribute node.hash node.label .orderHint) ↔
    ¬ selection.LacksTags ∧ selection.LacksOrderHint
  resolved : ¬ selection.LacksTags → ¬ selection.LacksOrderHint →
    ∃ attributes, outcome = .ok attributes ∧ selection.Gives node attributes

end AttributeSelection

namespace AttributeRule

/-- The rank that precedence compares. -/
def rank (rule : AttributeRule) : RuleRank :=
  if rule.index < 0 then ⊥ else ((toLex (rule.specificity, rule.index.toNat) : Nat ×ₗ Nat) : RuleRank)

end AttributeRule

/-- What the last rule that sets a field says. -/
def lastSet {α : Type _} (rules : List AttributeRule) (field : RuleAttributes → Option α) : Option α :=
  rules.reverse.findSome? fun rule => field rule.attributes

def AttributeSelection.ofLast (rules : List AttributeRule) : AttributeSelection where
  tags := lastSet rules RuleAttributes.tags
  vars key := lastSet rules (RuleAttributes.valueOf? key)
  orderHint := lastSet rules RuleAttributes.orderHint
  allowFailure := lastSet rules RuleAttributes.allowFailure

namespace CiConfig

variable {α : Type _} {config : CiConfig} {node : SpecNode}

/-- No two sources share a rank. -/
theorem Sets.unique {rank other : RuleRank} {left right : RuleAttributes} (first : config.Sets node rank left)
    (second : config.Sets node other right) (same : rank = other) : left = right := by
  cases first with
  | defaults given =>
    cases second with
    | defaults again => exact Option.some.inj (given.symm.trans again)
    | declared => exact absurd same WithBot.bot_ne_coe
  | declared listed =>
    cases second with
    | defaults => exact absurd same WithBot.coe_ne_bot
    | declared again =>
      obtain rfl := congrArg Prod.snd (toLex.injective (WithBot.coe_injective same))
      rw [Option.some.inj (listed.symm.trans again)]

theorem Selects.unique {field : RuleAttributes → Option α} {left right : Option α}
    (first : config.Selects node field left) (second : config.Selects node field right) : left = right := by
  cases left with
  | none =>
    cases right with
    | none => rfl
    | some value =>
      obtain ⟨rank, attributes, set, given, _⟩ := second
      exact (first rank attributes set).symm.trans given
  | some value =>
    obtain ⟨rank, attributes, set, given, highest⟩ := first
    cases right with
    | none => exact given.symm.trans (second rank attributes set)
    | some content =>
      obtain ⟨other, others, also, again, least⟩ := second
      have level := le_antisymm (least rank attributes set (by simp [given]))
        (highest other others also (by simp [again]))
      rw [← given, ← again, set.unique also level]

theorem SelectsAll.unique {left right : AttributeSelection} (first : config.SelectsAll node left)
    (second : config.SelectsAll node right) : left = right := by
  obtain ⟨tags, vars, orderHint, allowFailure⟩ := left
  obtain ⟨others, values, hint, failure⟩ := right
  obtain rfl := first.tags.unique second.tags
  obtain rfl := first.orderHint.unique second.orderHint
  obtain rfl := first.allowFailure.unique second.allowFailure
  obtain rfl : vars = values := funext fun key => (first.vars key).unique (second.vars key)
  rfl

end CiConfig

theorem AttributeRule.precedenceLe_ordered : Ordered AttributeRule.precedenceLe := by
  constructor
  · intro a b
    simp only [precedenceLe, Bool.or_eq_true, Bool.and_eq_true, decide_eq_true_eq, beq_iff_eq]
    omega
  · intro a b c
    simp only [precedenceLe, Bool.or_eq_true, Bool.and_eq_true, decide_eq_true_eq, beq_iff_eq]
    omega

namespace AttributeDraft

/-- Rules applied one after another leave what the last one that sets a field says. -/
theorem read_foldl_apply {β : Type _} (read : AttributeDraft → Option β) (field : RuleAttributes → Option β)
    (step : ∀ draft attributes, read (apply draft attributes) = (field attributes).or (read draft))
    (rules : List AttributeRule) (draft : AttributeDraft) :
    read (rules.foldl (fun draft rule => draft.apply rule.attributes) draft) =
      (lastSet rules field).or (read draft) := by
  induction rules generalizing draft with
  | nil => rfl
  | cons rule rest ih =>
    rw [List.foldl_cons, ih, step, lastSet, lastSet, List.reverse_cons, List.findSome?_append, Option.or_assoc]
    simp

end AttributeDraft

namespace Number

theorem natural?_eq_some_iff {number : Number} {value : Nat} :
    number.natural? = some value ↔ number = .finite value := by
  cases number with
  | finite number =>
    simp only [natural?, Option.ite_none_right_eq_some, Option.some.injEq, finite.injEq]
    constructor
    · rintro ⟨⟨whole, positive⟩, rfl⟩
      have numerator : ((number.num.toNat : Int) : Rat) = number := by
        rw [Int.toNat_of_nonneg (Rat.num_nonneg.2 positive), Rat.coe_int_num_of_den_eq_one whole]
      exact_mod_cast numerator.symm
    · rintro rfl
      exact ⟨⟨Rat.den_natCast value, Rat.natCast_nonneg⟩, by simp⟩
  | _ => simp [natural?]

theorem natural?_eq_none_iff {number : Number} :
    number.natural? = none ↔ number.isInteger = false ∨ number.lt (.finite 0) = true := by
  cases number with
  | finite number =>
    simp only [natural?, isInteger, lt, ite_eq_right_iff, reduceCtorEq, imp_false, not_and_or, Rat.not_le,
      beq_eq_false_iff_ne, decide_eq_true_eq, ne_eq]
  | _ => simp [natural?, isInteger]

end Number

namespace AttributeSelection

variable {selection : AttributeSelection}

theorem lacksTags_iff : selection.LacksTags ↔ withoutReservedTags (selection.tags.getD []) = [] := by
  simp only [LacksTags, withoutReservedTags, List.filter_eq_nil_iff]
  cases selection.tags <;> simp

theorem lacksOrderHint_iff : selection.LacksOrderHint ↔ selection.orderHint.bind Number.natural? = none := by
  simp only [LacksOrderHint, Option.bind_eq_none_iff, Number.natural?_eq_none_iff]

/-- A draft holds what a selection says, with the tags that a build may use. -/
structure Drafted (selection : AttributeSelection) (node : SpecNode) (draft : AttributeDraft) : Prop where
  tags : draft.tags = selection.tags.map withoutReservedTags
  vars : ∀ key, draft.vars.get? key = (selection.vars key).or (node.builtinVariables.get? key)
  orderHint : draft.orderHint = selection.orderHint
  allowFailure : draft.allowFailure = selection.allowFailure.getD false

theorem drafted_ofLast (rules : List AttributeRule) (node : SpecNode) :
    (ofLast rules).Drafted node
      (rules.foldl (fun draft rule => draft.apply rule.attributes) { vars := node.builtinVariables }) := by
  constructor
  case tags =>
    rw [AttributeDraft.read_foldl_apply AttributeDraft.tags (fun attributes => attributes.tags.map withoutReservedTags)
      (fun _ _ => rfl), Option.or_none]
    exact List.map_findSome?.symm
  case vars =>
    intro key
    refine AttributeDraft.read_foldl_apply (fun draft => draft.vars.get? key) (RuleAttributes.valueOf? key) ?_ rules _
    intro draft attributes
    rw [AttributeDraft.apply, Table.get?_merge, RuleAttributes.valueOf?]
    cases attributes.vars <;> rfl
  case orderHint =>
    rw [AttributeDraft.read_foldl_apply AttributeDraft.orderHint RuleAttributes.orderHint (fun _ _ => rfl),
      Option.or_none]
    rfl
  case allowFailure =>
    have read := AttributeDraft.read_foldl_apply (fun draft => some draft.allowFailure)
      RuleAttributes.allowFailure (fun draft attributes => by cases given : attributes.allowFailure <;>
        simp [AttributeDraft.apply, given]) rules { vars := node.builtinVariables }
    apply Option.some.inj
    rw [read]
    cases given : lastSet rules RuleAttributes.allowFailure <;> simp [ofLast, given]

namespace Drafted

variable {node : SpecNode} {draft : AttributeDraft}

theorem usable (drafted : selection.Drafted node draft) :
    draft.tags.getD [] = withoutReservedTags (selection.tags.getD []) := by
  rw [drafted.tags]
  cases selection.tags <;> rfl

theorem finish_of_lacksTags (drafted : selection.Drafted node draft) (lacking : selection.LacksTags) :
    draft.finish node = .error (.missingAttribute node.hash node.label .tags) := by
  simp [AttributeDraft.finish, drafted.usable, lacksTags_iff.1 lacking]

theorem finish_of_lacksOrderHint (drafted : selection.Drafted node draft) (tagged : ¬ selection.LacksTags)
    (lacking : selection.LacksOrderHint) :
    draft.finish node = .error (.missingAttribute node.hash node.label .orderHint) := by
  rw [lacksTags_iff] at tagged
  rw [lacksOrderHint_iff] at lacking
  simp only [AttributeDraft.finish, drafted.usable, List.isEmpty_iff, tagged, if_false, drafted.orderHint, lacking]

theorem exists_finish (drafted : selection.Drafted node draft) (tagged : ¬ selection.LacksTags)
    (hinted : ¬ selection.LacksOrderHint) :
    ∃ attributes, draft.finish node = .ok attributes ∧ selection.Gives node attributes := by
  rw [lacksTags_iff] at tagged
  rw [lacksOrderHint_iff] at hinted
  obtain ⟨orderHint, whole⟩ := Option.ne_none_iff_exists'.1 hinted
  obtain ⟨hint, given, natural⟩ := Option.bind_eq_some_iff.1 whole
  refine ⟨⟨sortTexts (distinct (withoutReservedTags (selection.tags.getD []))), draft.vars.sorted, orderHint,
    draft.allowFailure⟩, ?_, ?_⟩
  · simp only [AttributeDraft.finish, drafted.usable, List.isEmpty_iff, tagged, if_false, drafted.orderHint, whole]
  · constructor
    case sorted => exact textLe_ordered.sorted _
    case unique => exact (sortBy_perm _ _).nodup_iff.2 (nodup_distinct _)
    case tags => simp [sortTexts, withoutReservedTags]
    case vars =>
      intro key
      rw [Table.get?_sorted, drafted.vars]
    case orderHint => rw [given, Number.natural?_eq_some_iff.1 natural]
    case allowFailure => exact drafted.allowFailure

theorem settles (drafted : selection.Drafted node draft) : selection.Settles node (draft.finish node) := by
  by_cases tags : selection.LacksTags
  · have failed := drafted.finish_of_lacksTags tags
    constructor <;> simp [failed, tags]
  · by_cases orderHint : selection.LacksOrderHint
    · have failed := drafted.finish_of_lacksOrderHint tags orderHint
      constructor <;> simp [failed, tags, orderHint]
    · obtain ⟨attributes, done, gives⟩ := drafted.exists_finish tags orderHint
      constructor <;> simp [done, tags, orderHint, gives]

end Drafted

end AttributeSelection

namespace SpecNode

namespace Overlapping

/-- Defaults under two rules. The first one is constrained more, the second one is
declared later. -/
def config : CiConfig where
  defaults := some { tags := some ["any"], orderHint := some (.ofNat 1), allowFailure := some true }
  rules := some
    [{ predicate := some { package := some "p*" }, attributes := { tags := some ["big", "public"] } },
     { attributes := { tags := some ["small"], orderHint := some (.ofNat 2) } }]

def node : SpecNode where
  hash := "00"
  name := "png"
  version := "1"
  variants := Table.empty
  compiler := none
  arch := none
  external := false
  dependencies := []

end Overlapping

end SpecNode

end BuildPipeline
