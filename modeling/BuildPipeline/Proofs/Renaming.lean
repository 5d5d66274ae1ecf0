import BuildPipeline.Proofs.Merging

/-! Two tables that list the same builds under other keys and in another order. What
a key reaches and what it unfolds to goes along with the renaming, so the graphs of
both tables have the same nodes. -/

namespace BuildPipeline
open Relation

/-- Like content, and one set of dependencies once the keys are renamed. -/
structure SpecEntry.AlikeUnder (rename : Text → Text) (left right : SpecEntry) : Prop where
  content : left.content.Alike right.content
  dependencies : ∀ key, key ∈ right.dependencies ↔ ∃ dependency ∈ left.dependencies, rename dependency = key

/-- One key of the second table for each of the first, with an entry like it, and
one set of roots. -/
structure Renames (rename : Text → Text) (specs others : Table SpecEntry) (roots starts : List Text) : Prop where
  keys : Set.BijOn rename {key | key ∈ specs.keys} {key | key ∈ others.keys}
  entries : ∀ key entry other, specs.get? key = some entry → others.get? (rename key) = some other →
    entry.AlikeUnder rename other
  roots : ∀ key, key ∈ starts ↔ ∃ root ∈ roots, rename root = key

namespace SpecContent

theorem Alike.normalizedVariants_eq {left right : SpecContent} (alike : left.Alike right) :
    left.normalizedVariants = right.normalizedVariants := by
  rw [normalizedVariants, normalizedVariants, Variants.normalized, Variants.normalized,
    ← Table.sorted_mapValues, ← Table.sorted_mapValues]
  apply Table.sorted_eq_of_get?_eq
  intro key
  rw [Table.get?_mapValues, Table.get?_mapValues]
  have values := alike.variants key
  cases left' : (left.variants.getD Table.empty).get? key <;>
    cases right' : (right.variants.getD Table.empty).get? key <;>
    simp [left', right', VariantValue.normalized_eq_iff] at values ⊢
  exact values

theorem Plain.backing_eq {content : SpecContent} (plain : content.Plain) :
    content.variants.bind Variants.backing = none := by
  refine Option.bind_eq_none_iff.2 fun variants present => ?_
  have absent : variants.get? backingKey = none := lookup_eq_none (plain variants present)
  simp [Variants.backing, absent]

end SpecContent

/-- Like content over one set of fingerprints gives one node. -/
theorem SpecNode.ofContent_eq {left right : SpecContent} {dependencies others : List Text}
    (plain : left.Plain) (other : right.Plain) (alike : left.Alike right)
    (same : dependencySet dependencies = dependencySet others) :
    SpecNode.ofContent left dependencies = SpecNode.ofContent right others := by
  have payload := SpecContent.payload_eq_iff.2 ⟨(SpecContent.samePayload_iff plain other).2 alike, same⟩
  have external := alike.external
  rw [← SpecContent.isExternal_eq, ← SpecContent.isExternal_eq] at external
  simp only [SpecNode.ofContent, payload, alike.name, alike.version, alike.normalizedVariants_eq,
    plain.backing_eq, other.backing_eq, alike.compiler, alike.arch, external, same]

namespace LinkedStack

variable {stack other : LinkedStack} {rename : Text → Text}

theorem mem_keys_of_transGen {key last : Text} (path : TransGen stack.DependsOn key last) :
    last ∈ stack.specs.keys := by
  cases path with
  | single edge => exact edge.mem_keys
  | tail _ edge => exact edge.mem_keys

/-- The second stack is the first under other keys and in another order. -/
abbrev RenamedBy (stack : LinkedStack) (rename : Text → Text) (other : LinkedStack) : Prop :=
  Renames rename stack.specs other.specs stack.roots other.roots

namespace RenamedBy

theorem exists_alike (renamed : stack.RenamedBy rename other) {key : Text} {entry : SpecEntry}
    (found : stack.specs.get? key = some entry) :
    ∃ twin, other.specs.get? (rename key) = some twin ∧ entry.AlikeUnder rename twin := by
  have listed := Table.mem_keys_iff.2 ⟨entry, found⟩
  obtain ⟨twin, again⟩ := Table.exists_get?_of_mem_keys (renamed.keys.mapsTo listed)
  exact ⟨twin, again, renamed.entries key entry twin found again⟩

theorem dependsOn (renamed : stack.RenamedBy rename other) {key dependency : Text}
    (edge : stack.DependsOn key dependency) : other.DependsOn (rename key) (rename dependency) := by
  obtain ⟨entry, found, named⟩ := edge.exists_entry
  obtain ⟨twin, again, alike⟩ := renamed.exists_alike found
  exact (dependsOn_iff again).2 ((alike.dependencies _).2 ⟨dependency, named, rfl⟩)

theorem exists_dependsOn (renamed : stack.RenamedBy rename other) {key last : Text}
    (listed : key ∈ stack.specs.keys) (edge : other.DependsOn (rename key) last) :
    ∃ dependency, rename dependency = last ∧ stack.DependsOn key dependency := by
  obtain ⟨entry, found⟩ := Table.exists_get?_of_mem_keys listed
  obtain ⟨twin, again, alike⟩ := renamed.exists_alike found
  obtain ⟨dependency, named, same⟩ := (alike.dependencies last).1 ((dependsOn_iff again).1 edge)
  exact ⟨dependency, same, (dependsOn_iff found).2 named⟩

theorem reachable (renamed : stack.RenamedBy rename other) {key : Text} (reachable : stack.Reachable key) :
    other.Reachable (rename key) := by
  obtain ⟨root, listed, path⟩ := reachable
  exact ⟨rename root, (renamed.roots _).2 ⟨root, listed, rfl⟩, path.lift rename fun _ _ => renamed.dependsOn⟩

theorem exists_reachable (renamed : stack.RenamedBy rename other) {last : Text}
    (reachable : other.Reachable last) : ∃ key, rename key = last ∧ stack.Reachable key := by
  obtain ⟨start, listed, path⟩ := reachable
  induction path with
  | refl =>
    obtain ⟨root, first, same⟩ := (renamed.roots start).1 listed
    exact ⟨root, same, root, first, .refl⟩
  | tail _ edge ih =>
    obtain ⟨key, rfl, reached⟩ := ih
    obtain ⟨dependency, same, step⟩ := renamed.exists_dependsOn reached.mem_keys edge
    exact ⟨dependency, same, reached.tail step⟩

theorem exists_transGen (renamed : stack.RenamedBy rename other) {key last : Text}
    (listed : key ∈ stack.specs.keys) (path : TransGen other.DependsOn (rename key) last) :
    ∃ final, rename final = last ∧ TransGen stack.DependsOn key final := by
  induction path with
  | single edge =>
    obtain ⟨dependency, same, step⟩ := renamed.exists_dependsOn listed edge
    exact ⟨dependency, same, .single step⟩
  | tail _ edge ih =>
    obtain ⟨middle, rfl, front⟩ := ih
    obtain ⟨dependency, same, step⟩ := renamed.exists_dependsOn (mem_keys_of_transGen front) edge
    exact ⟨dependency, same, front.tail step⟩

/-- A renaming that keeps keys apart neither opens nor closes a cycle. -/
theorem acyclic_iff (renamed : stack.RenamedBy rename other) : stack.Acyclic ↔ other.Acyclic := by
  constructor
  · intro acyclic last reached path
    obtain ⟨key, rfl, reachable⟩ := renamed.exists_reachable reached
    obtain ⟨final, same, back⟩ := renamed.exists_transGen reachable.mem_keys path
    rw [renamed.keys.injOn (mem_keys_of_transGen back) reachable.mem_keys same] at back
    exact acyclic key reachable back
  · intro acyclic key reachable path
    exact acyclic (rename key) (renamed.reachable reachable) (path.lift rename fun _ _ => renamed.dependsOn)

/-- Both keys unfold to trees with one payload and one node. -/
theorem unfolds (renamed : stack.RenamedBy rename other) (plain : stack.PlainVariants)
    (plainOther : other.PlainVariants) {key : Text} {tree : SpecTree} (unfolds : stack.Unfolds key tree) :
    ∃ twin, other.Unfolds (rename key) twin ∧ twin.payload = tree.payload ∧ twin.node = tree.node := by
  induction unfolds with
  | @entry key entry below found _ ih =>
    obtain ⟨twin, again, alike⟩ := renamed.exists_alike found
    have trees : ∀ last ∈ twin.dependencies, ∃ tree, other.Unfolds last tree := by
      intro last named
      obtain ⟨dependency, listed, rfl⟩ := (alike.dependencies last).1 named
      obtain ⟨tree, unfolds, _⟩ := ih dependency listed
      exact ⟨tree, unfolds⟩
    choose! behind unfolds using trees
    have renamedHash : ∀ dependency ∈ entry.dependencies,
        rename dependency ∈ twin.dependencies ∧ (behind (rename dependency)).hash = (below dependency).hash := by
      intro dependency listed
      have named := (alike.dependencies _).2 ⟨dependency, listed, rfl⟩
      obtain ⟨tree, also, _, node⟩ := ih dependency listed
      rw [(unfolds _ named).unique also, ← tree.hash_node, node, SpecTree.hash_node]
      exact ⟨named, rfl⟩
    have hashes : dependencySet ((twin.dependencies.map behind).map SpecTree.hash) =
        dependencySet ((entry.dependencies.map below).map SpecTree.hash) := by
      rw [dependencySet_eq_iff]
      simp only [List.map_map, List.mem_map, Function.comp_apply]
      intro hash
      constructor
      · rintro ⟨last, named, rfl⟩
        obtain ⟨dependency, listed, rfl⟩ := (alike.dependencies last).1 named
        exact ⟨dependency, listed, (renamedHash dependency listed).2.symm⟩
      · rintro ⟨dependency, listed, rfl⟩
        exact ⟨rename dependency, renamedHash dependency listed⟩
    have first := plain _ (Table.get?_eq_some_iff.1 found)
    have second := plainOther _ (Table.get?_eq_some_iff.1 again)
    refine ⟨_, .entry again unfolds, ?_, ?_⟩
    · rw [SpecTree.payload, SpecTree.payload]
      have content := (SpecContent.samePayload_iff first second).2 alike.content
      exact (SpecContent.payload_eq_iff.2 ⟨content, hashes.symm⟩).symm
    · rw [SpecTree.node, SpecTree.node]
      exact (SpecNode.ofContent_eq first second alike.content hashes.symm).symm

end RenamedBy

end LinkedStack

end BuildPipeline
