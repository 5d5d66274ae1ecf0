import BuildPipeline.Proofs.PayloadText
import BuildPipeline.Proofs.SpecTree
import Mathlib.Data.Set.Function

/-! Builds that differ only in what a fingerprint leaves out: the order of keys,
choices and dependencies, repeats, and fields whose absence means nothing. As
long as no two payloads collide, these are the builds with one fingerprint. -/

namespace BuildPipeline
open Relation

namespace VariantValue

/-- Equal but for the order of choices. -/
def Alike : VariantValue → VariantValue → Prop
  | .choices left, .choices right => left.Perm right
  | left, right => left = right

theorem normalized_eq_iff {left right : VariantValue} : left.normalized = right.normalized ↔ left.Alike right := by
  cases left with
  | choices values =>
    cases right with
    | choices contents =>
      simp only [normalized, Alike, choices.injEq]
      constructor
      · intro same
        have sorted := sortBy_perm textLe values
        rw [← sortTexts, same] at sorted
        exact sorted.symm.trans (sortBy_perm textLe contents)
      · exact sortBy_eq_of_perm textLe_ordered fun a _ b _ => textLe_antisymm a b
    | _ => simp [normalized, Alike]
  | _ => cases right <;> simp [normalized, Alike]

end VariantValue

namespace Variants

def Alike (left right : Variants) : Prop :=
  ∀ key, Option.Rel VariantValue.Alike (left.get? key) (right.get? key)

/-- Alike under the keys that a record keeps when it is rebuilt. -/
def AlikeAsKept (left right : Variants) : Prop :=
  ∀ key, key ≠ backingKey → Option.Rel VariantValue.Alike (left.get? key) (right.get? key)

theorem get?_normalized (variants : Variants) (key : Text) :
    variants.normalized.get? key =
      if key = backingKey then none else (variants.get? key).map VariantValue.normalized := by
  rw [normalized, Table.get?_mapValues, Table.get?_sorted]
  split <;> rfl

theorem sortedEntries_normalized_eq_iff {left right : Variants} :
    left.normalized.sortedEntries = right.normalized.sortedEntries ↔ left.AlikeAsKept right := by
  rw [Table.sortedEntries_eq_iff]
  refine forall_congr' fun key => ?_
  rw [get?_normalized, get?_normalized]
  by_cases backing : key = backingKey
  · simp [backing]
  · cases left.get? key <;> cases right.get? key <;> simp [backing, VariantValue.normalized_eq_iff]

/-- Without variants under the key of the backing nothing is left out. -/
theorem alikeAsKept_iff {left right : Variants} (plain : backingKey ∉ left.keys) (other : backingKey ∉ right.keys) :
    left.AlikeAsKept right ↔ left.Alike right := by
  constructor
  · intro alike key
    by_cases backing : key = backingKey
    · have absent : left.get? key = none := lookup_eq_none (backing ▸ plain)
      have absentToo : right.get? key = none := lookup_eq_none (backing ▸ other)
      rw [absent, absentToo]
      exact .none
    · exact alike key backing
  · exact fun alike key _ => alike key

end Variants

namespace SpecContent

/-- No variant has the key that names the backing of a record. -/
def Plain (content : SpecContent) : Prop :=
  ∀ variants, content.variants = some variants → backingKey ∉ variants.keys

/-- Equal but for the order in variants, absent variants for none, and absence of
the external mark for its denial. -/
structure Alike (left right : SpecContent) : Prop where
  name : left.name = right.name
  version : left.version = right.version
  variants : (left.variants.getD Table.empty).Alike (right.variants.getD Table.empty)
  compiler : left.compiler = right.compiler
  arch : left.arch = right.arch
  external : left.external.getD false = right.external.getD false

theorem isExternal_eq (content : SpecContent) : content.isExternal = content.external.getD false := by
  unfold isExternal
  cases content.external with
  | none => rfl
  | some value => cases value <;> rfl

theorem Plain.notMem {content : SpecContent} (plain : content.Plain) :
    backingKey ∉ (content.variants.getD Table.empty).keys := by
  cases present : content.variants with
  | none => simp [Table.empty, Table.keys]
  | some variants => exact plain variants present

/-- One build as it is read: alike, where a variant under the key of the backing is none. -/
structure SameBuild (left right : SpecContent) : Prop where
  name : left.name = right.name
  version : left.version = right.version
  variants : (left.variants.getD Table.empty).AlikeAsKept (right.variants.getD Table.empty)
  compiler : left.compiler = right.compiler
  arch : left.arch = right.arch
  external : left.external.getD false = right.external.getD false

theorem samePayload_iff_sameBuild {left right : SpecContent} : left.SamePayload right ↔ left.SameBuild right := by
  constructor
  · intro same
    have external := same.isExternal
    rw [isExternal_eq, isExternal_eq] at external
    exact ⟨same.name, same.version, Variants.sortedEntries_normalized_eq_iff.1 same.variants, same.compiler,
      same.arch, external⟩
  · intro same
    have external := same.external
    rw [← isExternal_eq, ← isExternal_eq] at external
    exact ⟨same.arch, same.compiler, external, same.name, Variants.sortedEntries_normalized_eq_iff.2 same.variants,
      same.version⟩

theorem samePayload_iff {left right : SpecContent} (plain : left.Plain) (other : right.Plain) :
    left.SamePayload right ↔ left.Alike right := by
  rw [samePayload_iff_sameBuild]
  have variants := Variants.alikeAsKept_iff plain.notMem other.notMem
  constructor
  · exact fun same => ⟨same.name, same.version, variants.1 same.variants, same.compiler, same.arch, same.external⟩
  · exact fun alike => ⟨alike.name, alike.version, variants.2 alike.variants, alike.compiler, alike.arch, alike.external⟩

end SpecContent

namespace SpecTree

/-- Like content all the way down, over dependencies taken as sets. -/
def AlikeBy (same : SpecContent → SpecContent → Prop) : SpecTree → SpecTree → Prop
  | .build content dependencies, .build other others =>
    same content other ∧ (∀ tree ∈ dependencies, ∃ twin ∈ others, AlikeBy same tree twin) ∧
      ∀ twin ∈ others, ∃ tree, ∃ _ : tree ∈ dependencies, AlikeBy same tree twin

theorem alikeBy_build {same : SpecContent → SpecContent → Prop} {content other : SpecContent}
    {dependencies others : List SpecTree} :
    AlikeBy same (.build content dependencies) (.build other others) ↔
      same content other ∧ (∀ tree ∈ dependencies, ∃ twin ∈ others, AlikeBy same tree twin) ∧
        ∀ twin ∈ others, ∃ tree ∈ dependencies, AlikeBy same tree twin := by
  rw [AlikeBy]
  simp

end SpecTree

namespace LinkedStack

variable {stack : LinkedStack}

def PlainVariants (stack : LinkedStack) : Prop :=
  ∀ entry ∈ stack.specs.entries, entry.2.content.Plain

/-- The texts that fingerprints are taken of. -/
def payloads (stack : LinkedStack) : Set Text :=
  {payload | ∃ key tree, stack.Reachable key ∧ stack.Unfolds key tree ∧ payload = tree.payload}

theorem hash_eq_iff_payload_eq (injective : Set.InjOn fingerprint stack.payloads) {left right : Text}
    {tree twin : SpecTree} (reachable : stack.Reachable left) (also : stack.Reachable right)
    (unfolds : stack.Unfolds left tree) (twinUnfolds : stack.Unfolds right twin) :
    tree.hash = twin.hash ↔ tree.payload = twin.payload := by
  rw [tree.hash_eq, twin.hash_eq]
  exact injective.eq_iff ⟨left, tree, reachable, unfolds, rfl⟩ ⟨right, twin, also, twinUnfolds, rfl⟩

/-- Without collisions one fingerprint stands for a build and all that are like it,
from one table to another too. -/
theorem hash_eq_iff_alikeBy {other : LinkedStack} {texts : Set Text} (injective : Set.InjOn fingerprint texts)
    {same : SpecContent → SpecContent → Prop}
    (contents : ∀ entry ∈ stack.specs.entries, ∀ twin ∈ other.specs.entries,
      (entry.2.content.SamePayload twin.2.content ↔ same entry.2.content twin.2.content))
    {left right : Text} {tree twin : SpecTree} (unfolds : stack.Unfolds left tree)
    (twinUnfolds : other.Unfolds right twin)
    (inside : ∀ key below, ReflTransGen stack.DependsOn left key → stack.Unfolds key below → below.payload ∈ texts)
    (twinInside : ∀ key below, ReflTransGen other.DependsOn right key → other.Unfolds key below →
      below.payload ∈ texts) :
    tree.hash = twin.hash ↔ tree.AlikeBy same twin := by
  induction unfolds generalizing right twin with
  | @entry key entry below found unfolds ih =>
    have payloads := injective.eq_iff (inside _ _ .refl (.entry found unfolds)) (twinInside _ _ .refl twinUnfolds)
    rw [SpecTree.hash_eq, twin.hash_eq, payloads]
    cases twinUnfolds with
    | @entry _ partner behind again twinUnfolds =>
      have alike : ∀ tree ∈ entry.dependencies.map below, ∀ twin ∈ partner.dependencies.map behind,
          (tree.hash = twin.hash ↔ tree.AlikeBy same twin) := by
        intro tree listed twin twinListed
        obtain ⟨first, named, rfl⟩ := List.mem_map.1 listed
        obtain ⟨second, twinNamed, rfl⟩ := List.mem_map.1 twinListed
        refine ih first named (twinUnfolds second twinNamed) ?_ ?_
        · exact fun key below path => inside key below (path.head ((dependsOn_iff found).2 named))
        · exact fun key below path => twinInside key below (path.head ((dependsOn_iff again).2 twinNamed))
      rw [SpecTree.payload, SpecTree.payload, SpecContent.payload_eq_iff, SpecTree.alikeBy_build,
        contents _ (Table.get?_eq_some_iff.1 found) _ (Table.get?_eq_some_iff.1 again), dependencySet_map_eq_iff]
      refine and_congr_right fun _ => and_congr ?_ ?_
      · exact forall₂_congr fun tree listed => exists_congr fun twin =>
          and_congr_right fun twinListed => alike tree listed twin twinListed
      · exact forall₂_congr fun twin twinListed => exists_congr fun tree =>
          and_congr_right fun listed => alike tree listed twin twinListed

theorem Reachable.payload_mem {key last : Text} (reachable : stack.Reachable key)
    (path : ReflTransGen stack.DependsOn key last) {tree : SpecTree} (unfolds : stack.Unfolds last tree) :
    tree.payload ∈ stack.payloads := by
  obtain ⟨root, listed, front⟩ := reachable
  exact ⟨last, tree, ⟨root, listed, front.trans path⟩, unfolds, rfl⟩

theorem hash_eq_iff (plain : stack.PlainVariants) (injective : Set.InjOn fingerprint stack.payloads)
    {left right : Text} {tree twin : SpecTree} (reachable : stack.Reachable left) (also : stack.Reachable right)
    (unfolds : stack.Unfolds left tree) (twinUnfolds : stack.Unfolds right twin) :
    tree.hash = twin.hash ↔ tree.AlikeBy SpecContent.Alike twin := by
  refine hash_eq_iff_alikeBy injective ?_ unfolds twinUnfolds ?_ ?_
  · exact fun entry listed twin twinListed => SpecContent.samePayload_iff (plain entry listed) (plain twin twinListed)
  · exact fun key below path => reachable.payload_mem path
  · exact fun key below path => also.payload_mem path

/-- Two keys of the table for one build. -/
def SameBuild (stack : LinkedStack) (left right : Text) : Prop :=
  ∃ tree twin, stack.Unfolds left tree ∧ stack.Unfolds right twin ∧ tree.AlikeBy SpecContent.SameBuild twin

theorem sameBuild_iff {left right : Text} {tree twin : SpecTree} (unfolds : stack.Unfolds left tree)
    (twinUnfolds : stack.Unfolds right twin) :
    stack.SameBuild left right ↔ tree.AlikeBy SpecContent.SameBuild twin := by
  constructor
  · rintro ⟨other, partner, also, alsoTwin, alike⟩
    rwa [unfolds.unique also, twinUnfolds.unique alsoTwin]
  · exact fun alike => ⟨tree, twin, unfolds, twinUnfolds, alike⟩

end LinkedStack

end BuildPipeline
