import BuildPipeline.Proofs.Merging

/-! What becomes of the fingerprints when one entry of a table is edited. An edit keeps
the height of every tree, so what stands above the entry never turns into what the
entry was, and no old fingerprint passes to another key. -/

namespace BuildPipeline
open Relation

namespace Table

variable {α : Type _}

/-- Another value under a key, in the place of the one that was there. -/
def assign (table : Table α) (key : Text) (value : α) : Table α :=
  ⟨assignEntry table.entries key value, nodup_assignEntry table.unique key value⟩

theorem get?_assign (table : Table α) (key : Text) (value : α) (other : Text) :
    (table.assign key value).get? other = if other = key then some value else table.get? other :=
  lookup_assignEntry table.entries key value other

end Table

namespace SpecTree

/-- Levels of builds, from the root down to the furthest leaf. -/
def height : SpecTree → Nat
  | .build _ dependencies => (dependencies.map height).foldr max 0 + 1

theorem height_pos (tree : SpecTree) : 0 < tree.height := by
  cases tree
  rw [height]
  exact Nat.succ_pos _

theorem foldr_max_le_iff {values : List Nat} {bound : Nat} :
    values.foldr max 0 ≤ bound ↔ ∀ value ∈ values, value ≤ bound := by
  induction values with
  | nil => simp
  | cons value rest ih => simp [ih]

theorem height_le_iff {content : SpecContent} {dependencies : List SpecTree} {bound : Nat} :
    (build content dependencies).height ≤ bound + 1 ↔ ∀ tree ∈ dependencies, tree.height ≤ bound := by
  rw [height, Nat.add_le_add_iff_right, foldr_max_le_iff, List.forall_mem_map]

theorem height_lt_of_mem {content : SpecContent} {dependencies : List SpecTree} {tree : SpecTree}
    (listed : tree ∈ dependencies) : tree.height < (build content dependencies).height := by
  obtain ⟨bound, levels⟩ := Nat.exists_eq_succ_of_ne_zero (build content dependencies).height_pos.ne'
  rw [levels, Nat.lt_succ_iff]
  exact height_le_iff.1 levels.le tree listed

/-- Builds that are alike all the way down have as many levels. -/
theorem AlikeBy.height_le_iff {same : SpecContent → SpecContent → Prop} {tree twin : SpecTree}
    (alike : tree.AlikeBy same twin) {bound : Nat} : tree.height ≤ bound ↔ twin.height ≤ bound := by
  induction bound generalizing tree twin with
  | zero => simp only [Nat.le_zero, tree.height_pos.ne', twin.height_pos.ne']
  | succ bound ih =>
    cases tree with
    | build content dependencies =>
      cases twin with
      | build other others =>
        obtain ⟨_, forward, backward⟩ := alikeBy_build.1 alike
        rw [SpecTree.height_le_iff, SpecTree.height_le_iff]
        constructor
        · intro within twin listed
          obtain ⟨tree, also, alike⟩ := backward twin listed
          exact (ih alike).1 (within tree also)
        · intro within tree listed
          obtain ⟨twin, also, alike⟩ := forward tree listed
          exact (ih alike).2 (within twin also)

theorem AlikeBy.height_eq {same : SpecContent → SpecContent → Prop} {tree twin : SpecTree}
    (alike : tree.AlikeBy same twin) : tree.height = twin.height :=
  Nat.le_antisymm (alike.height_le_iff.2 (Nat.le_refl _)) (alike.height_le_iff.1 (Nat.le_refl _))

end SpecTree

namespace LinkedStack

variable {stack other : LinkedStack}

/-- What a key unfolds to is settled by the table alone. -/
theorem Unfolds.of_specs_eq {key : Text} {tree : SpecTree} (unfolds : stack.Unfolds key tree)
    (same : stack.specs = other.specs) : other.Unfolds key tree := by
  induction unfolds with
  | entry found _ ih => exact .entry (same ▸ found) ih

/-- What stands above a build is higher than it. -/
theorem height_lt_of_transGen {left right : Text} (path : TransGen stack.DependsOn left right)
    {tree twin : SpecTree} (unfolds : stack.Unfolds left tree) (below : stack.Unfolds right twin) :
    twin.height < tree.height := by
  induction path using TransGen.head_induction_on generalizing tree with
  | single edge =>
    cases unfolds with
    | entry found unfolds =>
      have named := (dependsOn_iff found).1 edge
      rw [below.unique (unfolds _ named)]
      exact SpecTree.height_lt_of_mem (List.mem_map_of_mem named)
  | head edge _ ih =>
    cases unfolds with
    | entry found unfolds =>
      have named := (dependsOn_iff found).1 edge
      exact (ih (unfolds _ named)).trans (SpecTree.height_lt_of_mem (List.mem_map_of_mem named))

/-- A table without a way back unfolds at every key. -/
theorem exists_unfolds (acyclic : ∀ key, ¬ TransGen stack.DependsOn key key) {key : Text}
    (listed : key ∈ stack.specs.keys) : ∃ tree, stack.Unfolds key tree := by
  have inside : ∀ name dependency, stack.DependsOn name dependency → dependency ∈ stack.specs.keys :=
    fun _ _ edge => edge.mem_keys
  obtain ⟨rank, lowers⟩ := exists_rank stack.specs.keys inside
  induction level : rank key using Nat.strong_induction_on generalizing key with
  | _ level ih =>
    subst level
    obtain ⟨entry, found⟩ := Table.mem_keys_iff.1 listed
    have trees : ∀ dependency ∈ entry.dependencies, ∃ tree, stack.Unfolds dependency tree := by
      intro dependency named
      have edge := (dependsOn_iff found).2 named
      exact ih _ (lowers _ _ edge (acyclic dependency)) edge.mem_keys rfl
    choose! below unfolds using trees
    exact ⟨_, .entry found unfolds⟩

/-- The second table is the first with other content under a key. -/
def EditedTo (stack : LinkedStack) (key : Text) (content : SpecContent) (other : LinkedStack) : Prop :=
  ∀ name, other.specs.get? name =
    (stack.specs.get? name).map fun entry => if name = key then { entry with content } else entry

namespace EditedTo

variable {key : Text} {content : SpecContent}

theorem get?_key (edited : stack.EditedTo key content other) {entry : SpecEntry}
    (found : stack.specs.get? key = some entry) : other.specs.get? key = some { entry with content } := by
  simp [edited key, found]

theorem get?_of_ne (edited : stack.EditedTo key content other) {name : Text} (apart : name ≠ key) :
    other.specs.get? name = stack.specs.get? name := by
  simp [edited name, apart]

theorem dependsOn (edited : stack.EditedTo key content other) : other.DependsOn = stack.DependsOn := by
  funext name dependency
  rw [DependsOn, DependsOn, dependenciesOf, dependenciesOf, edited name, Option.map_map]
  congr 3
  funext entry
  by_cases same : name = key <;> simp [same]

theorem symm (edited : stack.EditedTo key content other) {entry : SpecEntry}
    (found : stack.specs.get? key = some entry) : other.EditedTo key entry.content stack := by
  intro name
  by_cases same : name = key
  · subst same
    simp [edited.get?_key found, found]
  · rw [edited.get?_of_ne same]
    simp [same]

/-- The edit does not show in what stands apart from its key. -/
theorem unfolds_of_not_path (edited : stack.EditedTo key content other) {name : Text} {tree : SpecTree}
    (unfolds : stack.Unfolds name tree) (apart : ¬ ReflTransGen stack.DependsOn name key) :
    other.Unfolds name tree := by
  induction unfolds with
  | @entry name entry below found _ ih =>
    have different : name ≠ key := fun same => apart (same ▸ .refl)
    refine .entry ((edited.get?_of_ne different).trans found) fun dependency named => ?_
    exact ih dependency named fun path => apart (path.head ((dependsOn_iff found).2 named))

theorem exists_unfolds (edited : stack.EditedTo key content other) {name : Text} {tree : SpecTree}
    (unfolds : stack.Unfolds name tree) : ∃ twin, other.Unfolds name twin ∧ twin.height = tree.height := by
  induction unfolds with
  | @entry name entry below found _ ih =>
    choose! behind unfolds levels using ih
    have again := edited name
    rw [found, Option.map_some] at again
    have kept : (if name = key then { entry with content } else entry).dependencies = entry.dependencies := by
      split <;> rfl
    refine ⟨_, .entry again fun dependency named => unfolds dependency (kept ▸ named), ?_⟩
    have heights : (entry.dependencies.map behind).map SpecTree.height =
        (entry.dependencies.map below).map SpecTree.height := by
      rw [List.map_map, List.map_map]
      exact List.map_congr_left levels
    rw [kept, SpecTree.height, SpecTree.height, heights]

/-- Nothing in the edited table is what the keys above the edit were before. -/
theorem not_alikeBy (edited : stack.EditedTo key content other)
    (apart : ∀ left right, stack.SameBuild left right → left = right) {entry : SpecEntry}
    (found : stack.specs.get? key = some entry) (differs : ¬ entry.content.SameBuild content)
    {left right : Text} (path : ReflTransGen stack.DependsOn left key) {tree twin : SpecTree}
    (unfolds : stack.Unfolds left tree) (twinUnfolds : other.Unfolds right twin) :
    ¬ tree.AlikeBy SpecContent.SameBuild twin := by
  intro alike
  induction path using ReflTransGen.head_induction_on generalizing right tree twin with
  | refl =>
    by_cases reaches : ReflTransGen stack.DependsOn right key
    · rcases reflTransGen_iff_eq_or_transGen.1 reaches with rfl | above
      · -- The edited build itself, whose content has changed.
        cases unfolds with
        | entry again _ =>
          obtain rfl := Option.some.inj (again.symm.trans found)
          cases twinUnfolds with
          | entry replaced _ =>
            obtain rfl := Option.some.inj (replaced.symm.trans (edited.get?_key found))
            exact differs (SpecTree.alikeBy_build.1 alike).1
      · -- Whatever stands above the edited build is higher than it was.
        obtain ⟨replaced, below, levels⟩ := edited.exists_unfolds unfolds
        have higher := height_lt_of_transGen (edited.dependsOn ▸ above) twinUnfolds below
        rw [levels, alike.height_eq] at higher
        exact Nat.lt_irrefl _ higher
    · -- What the edit leaves alone was no copy of the build before.
      have back : stack.Unfolds right twin :=
        (edited.symm found).unfolds_of_not_path twinUnfolds (edited.dependsOn ▸ reaches)
      obtain rfl := apart key right ⟨tree, twin, unfolds, back, alike⟩
      exact reaches .refl
  | head edge _ ih =>
    cases unfolds with
    | entry again unfolds =>
      cases twinUnfolds with
      | entry _ twinUnfolds =>
        have named := (dependsOn_iff again).1 edge
        obtain ⟨_, forward, _⟩ := SpecTree.alikeBy_build.1 alike
        obtain ⟨partner, listed, alike⟩ := forward _ (List.mem_map_of_mem named)
        obtain ⟨dependency, also, rfl⟩ := List.mem_map.1 listed
        exact ih (unfolds _ named) (twinUnfolds dependency also) alike

end EditedTo

end LinkedStack

namespace StackManifest

variable {manifest : StackManifest} {stack : LinkedStack}

/-- No dependency in the table dangles. -/
def Closed (specs : Table SpecEntry) : Prop :=
  ∀ entry ∈ specs.entries, ∀ key ∈ entry.2.dependencies, key ∈ specs.keys

theorem known_of_link (linked : manifest.link = .ok stack) :
    Closed manifest.specs ∧ ∀ root ∈ manifest.roots, root ∈ manifest.specs.keys := by
  obtain ⟨specs, roots⟩ := eq_of_link linked
  rw [← specs, ← roots]
  exact ⟨stack.dependencies_known, stack.roots_known⟩

theorem exists_link (closed : Closed manifest.specs) (roots : ∀ root ∈ manifest.roots, root ∈ manifest.specs.keys) :
    ∃ stack, manifest.link = .ok stack := by
  refine ⟨_, dif_pos (List.append_eq_nil_iff.2 ⟨?_, ?_⟩)⟩
  · refine List.flatMap_eq_nil_iff.2 fun entry listed => ?_
    simpa using closed entry listed
  · simpa [unknownRoots] using roots

/-- Another entry in the place of the one under a key. -/
def withEntry (manifest : StackManifest) (key : Text) (entry : SpecEntry) : StackManifest :=
  { manifest with specs := manifest.specs.assign key entry }

theorem exists_link_withEntry (linked : manifest.link = .ok stack) {key : Text} {entry : SpecEntry}
    (found : manifest.specs.get? key = some entry) (content : SpecContent) :
    ∃ other, (manifest.withEntry key { entry with content }).link = .ok other ∧
      stack.EditedTo key content other := by
  have edited : ∀ name, (manifest.specs.assign key { entry with content }).get? name =
      (manifest.specs.get? name).map fun entry => if name = key then { entry with content } else entry := by
    intro name
    rw [Table.get?_assign]
    by_cases same : name = key <;> simp [same, found]
  have kept : ∀ name ∈ manifest.specs.keys, name ∈ (manifest.specs.assign key { entry with content }).keys := by
    intro name listed
    obtain ⟨other, also⟩ := Table.mem_keys_iff.1 listed
    exact Table.mem_keys_iff.2 ⟨_, by rw [edited, also, Option.map_some]⟩
  obtain ⟨known, roots⟩ := known_of_link linked
  have closed : Closed (manifest.specs.assign key { entry with content }) := by
    intro replaced listed dependency named
    obtain ⟨before, old, same⟩ := Option.map_eq_some_iff.1 ((edited _).symm.trans (Table.get?_eq_some_iff.2 listed))
    have carried : replaced.2.dependencies = before.dependencies := by
      rw [← same]
      split <;> rfl
    exact kept _ (known _ (Table.get?_eq_some_iff.1 old) _ (carried ▸ named))
  obtain ⟨other, relinked⟩ : ∃ other, (manifest.withEntry key { entry with content }).link = .ok other :=
    exists_link closed fun root listed => kept root (roots root listed)
  refine ⟨other, relinked, fun name => ?_⟩
  rw [(eq_of_link linked).1, (eq_of_link relinked).1]
  exact edited name

/-- The texts of all the builds in the table, whether a root reaches them or not. -/
def texts (manifest : StackManifest) : Set Text :=
  {payload | ∃ stack key tree, manifest.link = .ok stack ∧ stack.Unfolds key tree ∧ payload = tree.payload}

/-- From whichever roots a walk sets out, this is what it makes of the keys. -/
def Hashes (manifest : StackManifest) (hashOf : Text → Text) : Prop :=
  ∀ roots, (∀ root ∈ roots, root ∈ manifest.specs.keys) → ∃ stack build,
    ({ manifest with roots } : StackManifest).link = .ok stack ∧ stack.walk = .ok build ∧
      ∀ key, stack.Reachable key → build.hashOf? key = some (hashOf key)

theorem exists_hashes (linked : manifest.link = .ok stack) (acyclic : ∀ key, ¬ TransGen stack.DependsOn key key) :
    ∃ hashOf, manifest.Hashes hashOf ∧ ∀ key tree, stack.Unfolds key tree → tree.hash = hashOf key := by
  have settled : ∀ key, ∃ hash, ∀ tree, stack.Unfolds key tree → tree.hash = hash := by
    intro key
    by_cases unfolds : ∃ tree, stack.Unfolds key tree
    · obtain ⟨tree, unfolds⟩ := unfolds
      exact ⟨tree.hash, fun other also => by rw [also.unique unfolds]⟩
    · exact ⟨[], fun tree also => absurd ⟨tree, also⟩ unfolds⟩
  choose hashOf settled using settled
  refine ⟨hashOf, fun roots known => ?_, settled⟩
  obtain ⟨other, relinked⟩ : ∃ other, ({ manifest with roots } : StackManifest).link = .ok other :=
    exists_link (known_of_link linked).1 known
  have same : other.specs = stack.specs := (eq_of_link relinked).1.trans (eq_of_link linked).1.symm
  have edges : other.DependsOn = stack.DependsOn := by
    funext key dependency
    rw [LinkedStack.DependsOn, LinkedStack.DependsOn, LinkedStack.dependenciesOf, LinkedStack.dependenciesOf, same]
  have walks : other.Acyclic := fun key _ => edges ▸ acyclic key
  obtain ⟨build, walked⟩ := walks.exists_walk
  refine ⟨other, build, relinked, walked, fun key reachable => ?_⟩
  obtain ⟨tree, unfolds, hash⟩ := LinkedStack.exists_tree_of_reachable walked reachable
  rw [LinkedStack.hashOf?_eq walked reachable, ← hash, settled key tree (unfolds.of_specs_eq same)]

/-- Unless payloads collide, an edit that shows in the build of an entry changes the
fingerprints of that entry and of all that reaches it, and no others, in a table
without repeated builds. What has changed is found under no key any more. -/
theorem edit_changes_hashes (linked : manifest.link = .ok stack)
    (acyclic : ∀ key, ¬ TransGen stack.DependsOn key key)
    (apart : ∀ left right, stack.SameBuild left right → left = right) {key : Text} {entry : SpecEntry}
    (found : manifest.specs.get? key = some entry) {content : SpecContent}
    (differs : ¬ entry.content.SameBuild content)
    (injective : Set.InjOn fingerprint (manifest.texts ∪ (manifest.withEntry key { entry with content }).texts)) :
    ∃ before after : Text → Text, manifest.Hashes before ∧
      (manifest.withEntry key { entry with content }).Hashes after ∧
      (∀ name ∈ manifest.specs.keys, before name ≠ after name ↔ name = key ∨ TransGen stack.DependsOn name key) ∧
      ∀ name ∈ manifest.specs.keys, ∀ twin ∈ manifest.specs.keys,
        (name = key ∨ TransGen stack.DependsOn name key) → before name ≠ after twin := by
  obtain ⟨other, relinked, edited⟩ := exists_link_withEntry linked found content
  obtain ⟨before, walks, settled⟩ := exists_hashes linked acyclic
  obtain ⟨after, rewalks, resettled⟩ := exists_hashes relinked fun key => edited.dependsOn ▸ acyclic key
  have specs := (eq_of_link linked).1
  have lost : ∀ name ∈ manifest.specs.keys, ∀ twin ∈ manifest.specs.keys,
      ReflTransGen stack.DependsOn name key → before name ≠ after twin := by
    intro name listed twin also path same
    obtain ⟨tree, unfolds⟩ := LinkedStack.exists_unfolds acyclic (specs ▸ listed)
    obtain ⟨partner, unedited⟩ := LinkedStack.exists_unfolds acyclic (specs ▸ also)
    obtain ⟨partner, twinUnfolds, _⟩ := edited.exists_unfolds unedited
    rw [← settled name tree unfolds, ← resettled twin partner twinUnfolds] at same
    refine edited.not_alikeBy apart (specs ▸ found) differs path unfolds twinUnfolds ?_
    refine (LinkedStack.hash_eq_iff_alikeBy injective ?_ unfolds twinUnfolds ?_ ?_).1 same
    · exact fun _ _ _ _ => SpecContent.samePayload_iff_sameBuild
    · exact fun below tree _ unfolds => .inl ⟨stack, below, tree, linked, unfolds, rfl⟩
    · exact fun below tree _ unfolds => .inr ⟨other, below, tree, relinked, unfolds, rfl⟩
  have reaches : ∀ name, (name = key ∨ TransGen stack.DependsOn name key) ↔ ReflTransGen stack.DependsOn name key := by
    intro name
    rw [reflTransGen_iff_eq_or_transGen, eq_comm]
  simp only [reaches]
  refine ⟨before, after, walks, rewalks, fun name listed => ⟨?_, ?_⟩, lost⟩
  · intro changed
    by_contra clear
    obtain ⟨tree, unfolds⟩ := LinkedStack.exists_unfolds acyclic (specs ▸ listed)
    apply changed
    rw [← settled name tree unfolds, resettled name tree (edited.unfolds_of_not_path unfolds clear)]
  · exact fun path => lost name listed name listed path

end StackManifest

namespace Upgraded

def app : SpecContent := { name := "app", version := "1" }

def other : SpecContent := { name := "other", version := "1" }

def tool (version : Text) : SpecContent := { name := "tool", version }

/-- A build above a tool, and one beside them. -/
def manifest (content : SpecContent) : StackManifest where
  name := "stack"
  roots := ["a"]
  specs :=
    ⟨[("a", ⟨app, ["t"]⟩), ("t", ⟨content, []⟩), ("o", ⟨other, []⟩)],
      (by decide +kernel : (["a", "t", "o"] : List Text).Nodup)⟩

def stack : LinkedStack where
  specs := (manifest (tool "1")).specs
  roots := (manifest (tool "1")).roots
  dependencies_known := by decide +kernel
  roots_known := by decide +kernel

theorem linked : (manifest (tool "1")).link = .ok stack :=
  dif_pos (by decide +kernel)

theorem eq_of_dependsOn {key dependency : Text} (edge : stack.DependsOn key dependency) :
    key = "a" ∧ dependency = "t" := by
  obtain ⟨entry, found, named⟩ := edge.exists_entry
  have only : ∀ entry ∈ stack.specs.entries, ∀ dependency ∈ entry.2.dependencies,
      entry.1 = "a" ∧ dependency = "t" := by decide +kernel
  exact only _ (Table.get?_eq_some_iff.1 found) dependency named

theorem not_transGen (key : Text) : ¬ TransGen stack.DependsOn key key := by
  have lowers : ∀ key dependency, stack.DependsOn key dependency →
      (if dependency = "a" then 1 else 0) < if key = "a" then 1 else 0 := by
    intro key dependency edge
    obtain ⟨rfl, rfl⟩ := eq_of_dependsOn edge
    decide +kernel
  exact fun path => Nat.lt_irrefl _ (rank_lt_of_transGen lowers path)

theorem eq_of_sameBuild {left right : Text} (same : stack.SameBuild left right) : left = right := by
  have named : ∀ entry ∈ stack.specs.entries, ∀ twin ∈ stack.specs.entries,
      entry.2.content.name = twin.2.content.name → entry.1 = twin.1 := by decide +kernel
  obtain ⟨tree, twin, unfolds, twinUnfolds, alike⟩ := same
  cases unfolds with
  | entry found _ =>
    cases twinUnfolds with
    | entry again _ =>
      exact named _ (Table.get?_eq_some_iff.1 found) _ (Table.get?_eq_some_iff.1 again)
        (SpecTree.alikeBy_build.1 alike).1.name

def payloads (content : SpecContent) : List Text :=
  [app.payload [fingerprint (content.payload [])], content.payload [], other.payload []]

theorem mem_payloads {content : SpecContent} {payload : Text} (listed : payload ∈ (manifest content).texts) :
    payload ∈ payloads content := by
  obtain ⟨stack, key, tree, linked, unfolds, rfl⟩ := listed
  have specs := (StackManifest.eq_of_link linked).1
  have leaf : stack.Unfolds "t" (.build content []) :=
    .leaf (specs ▸ Table.get?_eq_some_iff.2 (by simp [manifest]))
  cases unfolds with
  | @entry _ entry below found unfolds =>
    have listed := Table.get?_eq_some_iff.1 found
    simp only [specs, manifest, List.mem_cons, Prod.mk.injEq, List.not_mem_nil, or_false] at listed
    rcases listed with ⟨rfl, rfl⟩ | ⟨rfl, rfl⟩ | ⟨rfl, rfl⟩
    · have below := (unfolds "t" List.mem_cons_self).unique leaf
      simp [payloads, SpecTree.payload, SpecTree.hash, below]
    · simp [payloads, SpecTree.payload]
    · simp [payloads, SpecTree.payload]

theorem withEntry_tool : (manifest (tool "1")).withEntry "t" ⟨tool "2", []⟩ = manifest (tool "2") := by
  decide +kernel

theorem injOn_texts : Set.InjOn fingerprint
    ((manifest (tool "1")).texts ∪ ((manifest (tool "1")).withEntry "t" ⟨tool "2", []⟩).texts) := by
  rw [withEntry_tool]
  let all : List Text := distinct (payloads (tool "1") ++ payloads (tool "2"))
  have once : (all.map fingerprint).Nodup := by decide +kernel
  have listed : ∀ payload ∈ (manifest (tool "1")).texts ∪ (manifest (tool "2")).texts, payload ∈ all := by
    rintro payload (old | new)
    · exact mem_distinct.2 (List.mem_append_left _ (mem_payloads old))
    · exact mem_distinct.2 (List.mem_append_right _ (mem_payloads new))
  intro left first right second same
  exact List.inj_on_of_nodup_map once (listed left first) (listed right second) same

end Upgraded

open Upgraded in
theorem StackManifest.edit_changes_hashes_upgraded :
    ∃ before after, (manifest (tool "1")).Hashes before ∧ (manifest (tool "2")).Hashes after ∧
      before "a" ≠ after "a" ∧ before "t" ≠ after "t" ∧ before "o" = after "o" := by
  have found : (manifest (tool "1")).specs.get? "t" = some ⟨tool "1", []⟩ := by decide +kernel
  have differs : ¬ (tool "1").SameBuild (tool "2") := fun same => absurd same.version (by decide +kernel)
  have above : stack.DependsOn "a" "t" := (by decide +kernel : Text.ofString "t" ∈ stack.dependenciesOf "a")
  obtain ⟨before, after, walks, rewalks, changed, _⟩ :=
    StackManifest.edit_changes_hashes linked not_transGen (fun _ _ => eq_of_sameBuild) found differs injOn_texts
  refine ⟨before, after, walks, withEntry_tool ▸ rewalks, ?_, ?_, ?_⟩
  · exact (changed "a" (by decide +kernel)).2 (.inr (.single above))
  · exact (changed "t" (by decide +kernel)).2 (.inl rfl)
  · by_contra different
    rcases (changed "o" (by decide +kernel)).1 different with same | path
    · exact absurd same (by decide +kernel)
    · obtain ⟨_, edge, _⟩ := TransGen.head'_iff.1 path
      exact absurd (eq_of_dependsOn edge).1 (by decide +kernel)

end BuildPipeline
