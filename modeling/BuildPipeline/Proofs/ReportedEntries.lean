import BuildPipeline.Proofs.Descending
import BuildPipeline.Proofs.Verifying

/-! What a verification says of the entries of a table. The keys that it looks for
are those that the walk has finished, so all that it counts as merged is merged. -/

namespace BuildPipeline
open Relation

/-- Members listed once are fewer than a listing of the same ones that repeats some. -/
theorem length_lt_iff_not_nodup {α : Type _} {unique items : List α} (once : unique.Nodup)
    (same : ∀ item, item ∈ unique ↔ item ∈ items) :
    unique.length ≤ items.length ∧ (unique.length < items.length ↔ ¬ items.Nodup) := by
  have within : unique.Subperm items := List.subperm_of_subset once fun item listed => (same item).1 listed
  refine ⟨within.length_le, ?_, ?_⟩
  · intro fewer apart
    exact absurd (perm_of_mem_iff once apart same).length_eq (Nat.ne_of_lt fewer)
  · intro repeated
    refine Nat.lt_of_not_le fun enough => repeated ?_
    exact (within.perm_of_length_le enough).nodup_iff.1 once

namespace LinkedStack

variable {stack : LinkedStack} {build : GraphBuild} {graph : PipelineGraph}

theorem mem_reachableKeys {key : Text} : key ∈ stack.reachableKeys ↔ stack.Reachable key := by
  rw [reachableKeys, Reach.mem_descend fun _ _ _ => rfl]
  simp only [List.mem_reverse, true_and]
  rfl

theorem nodup_reachableKeys (stack : LinkedStack) : stack.reachableKeys.Nodup :=
  Reach.nodup_descend (fun _ _ _ => rfl) _

theorem isSome_hashOf?_iff (walked : stack.walk = .ok build) {key : Text} :
    (build.hashOf? key).isSome ↔ stack.Reachable key := by
  constructor
  · intro known
    obtain ⟨hash, found⟩ := Option.isSome_iff_exists.1 known
    exact ((walk_sound walked).1.finished key hash found).2.1
  · exact isSome_of_reachable walked

/-- Without collisions a fingerprint is that of one build. -/
theorem finishedHash_eq_iff (walked : stack.walk = .ok build) (injective : Set.InjOn fingerprint stack.payloads)
    {left right : Text} (reachable : stack.Reachable left) (also : stack.Reachable right) :
    finishedHash build left = finishedHash build right ↔ stack.SameBuild left right := by
  obtain ⟨tree, unfolds, same⟩ := exists_tree_of_reachable walked reachable
  obtain ⟨twin, twinUnfolds, twinSame⟩ := exists_tree_of_reachable walked also
  rw [← same, ← twinSame, sameBuild_iff unfolds twinUnfolds]
  exact hash_eq_iff_alikeBy injective (fun _ _ _ _ => SpecContent.samePayload_iff_sameBuild) unfolds twinUnfolds
    (fun _ _ path => reachable.payload_mem path) (fun _ _ path => also.payload_mem path)

/-- The keys that roots reach, and one of them for each build. -/
structure Census (stack : LinkedStack) (reached builds : List Text) : Prop where
  once : reached.Nodup
  reachable : ∀ key, key ∈ reached ↔ stack.Reachable key
  members : ∀ key ∈ builds, key ∈ reached
  apart : builds.Pairwise fun left right => ¬ stack.SameBuild left right
  covered : ∀ key ∈ reached, ∃ build ∈ builds, stack.SameBuild key build

/-- Each node of the graph stands for the builds of one of the keys. -/
theorem exists_census (walked : stack.walk = .ok build) (nodes : graph.nodes.Perm build.nodes)
    (injective : Set.InjOn fingerprint stack.payloads) :
    ∃ builds, stack.Census stack.reachableKeys builds ∧ builds.length = graph.size := by
  have keys : ∀ hash ∈ graph.hashes, ∃ key, stack.Reachable key ∧ finishedHash build key = hash :=
    fun hash => (mem_hashes_iff walked nodes).1
  choose! keyOf reachable stands using keys
  refine ⟨graph.hashes.map keyOf, ⟨stack.nodup_reachableKeys, fun key => mem_reachableKeys, ?_, ?_, ?_⟩, ?_⟩
  · intro key listed
    obtain ⟨hash, member, rfl⟩ := List.mem_map.1 listed
    exact mem_reachableKeys.2 (reachable hash member)
  · refine List.pairwise_map.2 (List.Pairwise.imp_of_mem ?_ graph.hashes_unique)
    intro left right listed also different same
    rw [← finishedHash_eq_iff walked injective (reachable left listed) (reachable right also), stands left listed,
      stands right also] at same
    exact different same
  · intro key reached
    have reached := mem_reachableKeys.1 reached
    have listed := (mem_hashes_iff walked nodes).2 ⟨key, reached, rfl⟩
    refine ⟨_, List.mem_map_of_mem listed, ?_⟩
    exact (finishedHash_eq_iff walked injective reached (reachable _ listed)).1 (stands _ listed).symm
  · rw [List.length_map]
    exact List.length_map _

/-- As many nodes as reached keys at most, and fewer just when two keys have one build. -/
theorem size_lt_iff (walked : stack.walk = .ok build) (nodes : graph.nodes.Perm build.nodes)
    (injective : Set.InjOn fingerprint stack.payloads) :
    graph.size ≤ stack.reachableKeys.length ∧
      (graph.size < stack.reachableKeys.length ↔ ∃ left right, stack.Reachable left ∧ stack.Reachable right ∧
        left ≠ right ∧ stack.SameBuild left right) := by
  have listed : ∀ hash, hash ∈ graph.hashes ↔ hash ∈ stack.reachableKeys.map (finishedHash build) := by
    intro hash
    simp only [mem_hashes_iff walked nodes, List.mem_map, mem_reachableKeys]
  obtain ⟨most, fewer⟩ := length_lt_iff_not_nodup graph.hashes_unique listed
  rw [List.length_map, List.length_map] at most fewer
  refine ⟨most, fewer.trans ?_⟩
  rw [List.nodup_map_iff_inj_on stack.nodup_reachableKeys]
  simp only [mem_reachableKeys, not_forall]
  constructor
  · rintro ⟨left, reachable, right, also, same, apart⟩
    exact ⟨left, right, reachable, also, apart, (finishedHash_eq_iff walked injective reachable also).1 same⟩
  · rintro ⟨left, right, reachable, also, apart, same⟩
    exact ⟨left, reachable, right, also, (finishedHash_eq_iff walked injective reachable also).2 same, apart⟩

/-- The keys that are reported as unreachable. -/
def unreachedKeys (stack : LinkedStack) : List Text :=
  (sortTexts stack.specs.keys).filter (· ∉ stack.reachableKeys)

theorem mem_unreachedKeys {key : Text} :
    key ∈ stack.unreachedKeys ↔ key ∈ stack.specs.keys ∧ ¬ stack.Reachable key := by
  simp [unreachedKeys, sortTexts, mem_reachableKeys]

theorem sorted_unreachedKeys (stack : LinkedStack) :
    stack.unreachedKeys.Nodup ∧ stack.unreachedKeys.Pairwise (textLe · · = true) :=
  ⟨((sortBy_perm textLe _).nodup_iff.2 stack.specs.unique).filter _, (textLe_ordered.sorted _).filter _⟩

end LinkedStack

/-- What is found under a code, in the order of the report. -/
def Verification.findings (verification : Verification) (code : Text) : List Issue :=
  verification.issues.filter (·.code = code)

namespace StackManifest

variable {manifest : StackManifest} {stack : LinkedStack} {graph : PipelineGraph}

theorem specCount_of_graph (linked : manifest.link = .ok stack) (made : stack.graph = .ok graph) :
    manifest.verify.specCount = some graph.size := by
  simp only [verify, linked, made]

theorem findings_unreachable (linked : manifest.link = .ok stack) (made : stack.graph = .ok graph) :
    manifest.verify.findings "SPEC-UNREACHABLE" = stack.unreachedKeys.map .unreachable := by
  have unreachable : stack.unreachableIssues.filter (·.code = Text.ofString "SPEC-UNREACHABLE") =
      stack.unreachedKeys.map .unreachable := by
    refine List.filter_eq_self.2 fun issue found => ?_
    obtain ⟨key, _, rfl⟩ := List.mem_map.1 found
    rfl
  have others : (stack.duplicateIssues graph ++ graph.unusedRules manifest.config).filter
      (·.code = Text.ofString "SPEC-UNREACHABLE") = [] := by
    refine List.filter_eq_nil_iff.2 fun issue found => ?_
    rcases List.mem_append.1 found with duplicate | unused
    · obtain ⟨count, reachable, rfl⟩ := LinkedStack.mem_duplicateIssues duplicate
      exact of_decide_eq_false rfl
    · obtain ⟨index, _, _, _, rfl⟩ := PipelineGraph.mem_unusedRules.1 unused
      exact of_decide_eq_false rfl
  rw [Verification.findings, verify_of_graph linked made, List.append_assoc, List.filter_append, unreachable, others,
    List.append_nil]

theorem findings_duplicate (linked : manifest.link = .ok stack) (made : stack.graph = .ok graph) :
    manifest.verify.findings "SPEC-DUPLICATE" = stack.duplicateIssues graph := by
  have unreachable : stack.unreachableIssues.filter (·.code = Text.ofString "SPEC-DUPLICATE") = [] := by
    refine List.filter_eq_nil_iff.2 fun issue found => ?_
    obtain ⟨key, _, rfl⟩ := List.mem_map.1 found
    exact of_decide_eq_false rfl
  have duplicate : (stack.duplicateIssues graph).filter (·.code = Text.ofString "SPEC-DUPLICATE") =
      stack.duplicateIssues graph := by
    refine List.filter_eq_self.2 fun issue found => ?_
    obtain ⟨count, reachable, rfl⟩ := LinkedStack.mem_duplicateIssues found
    rfl
  have unused : (graph.unusedRules manifest.config).filter (·.code = Text.ofString "SPEC-DUPLICATE") = [] := by
    refine List.filter_eq_nil_iff.2 fun issue found => ?_
    obtain ⟨index, _, _, _, rfl⟩ := PipelineGraph.mem_unusedRules.1 found
    exact of_decide_eq_false rfl
  rw [Verification.findings, verify_of_graph linked made, List.filter_append, List.filter_append, unreachable,
    duplicate, unused, List.nil_append, List.append_nil]

end StackManifest

/-- Unless payloads collide, a manifest that makes a graph is told of exactly the keys
that no root reaches, of how many builds it has, and of all the reached keys that
repeat one. The keys that it is told of are those that the walk leaves out. -/
theorem Value.entries_reported_exactly {value : Value} {manifest : StackManifest} {stack : LinkedStack}
    {graph : PipelineGraph} (checked : value.checkManifest = .ok manifest) (linked : manifest.link = .ok stack)
    (made : stack.graph = .ok graph) (injective : Set.InjOn fingerprint stack.payloads) :
    (∃ unreached : List Text, unreached.Nodup ∧ unreached.Pairwise (textLe · · = true) ∧
      (∀ key, key ∈ unreached ↔ key ∈ manifest.specs.keys ∧ ¬ stack.Reachable key) ∧
      value.verify.findings "SPEC-UNREACHABLE" = unreached.map .unreachable) ∧
    (∃ reached builds repeats, stack.Census reached builds ∧ repeats + builds.length = reached.length ∧
      (0 < repeats ↔ ∃ left right, stack.Reachable left ∧ stack.Reachable right ∧ left ≠ right ∧
        stack.SameBuild left right) ∧
      value.verify.specCount = some builds.length ∧
      value.verify.findings "SPEC-DUPLICATE" =
        if 0 < repeats then [.duplicates repeats reached.length] else []) ∧
    graph.size ≤ stack.reachableKeys.length ∧
    ∃ build, stack.walk = .ok build ∧ ∀ key, key ∈ stack.reachableKeys ↔ (build.hashOf? key).isSome := by
  obtain ⟨build, walked, nodes⟩ := LinkedStack.exists_walk_of_graph made
  obtain ⟨builds, census, size⟩ := LinkedStack.exists_census walked nodes injective
  obtain ⟨most, fewer⟩ := LinkedStack.size_lt_iff walked nodes injective
  have specs := (StackManifest.eq_of_link linked).1
  rw [verify_of_checked checked]
  refine ⟨⟨stack.unreachedKeys, stack.sorted_unreachedKeys.1, stack.sorted_unreachedKeys.2, ?_, ?_⟩,
    ⟨stack.reachableKeys, builds, stack.reachableKeys.length - graph.size, census, ?_, ?_, ?_, ?_⟩, most,
    build, walked, fun key => ?_⟩
  · exact fun key => specs ▸ LinkedStack.mem_unreachedKeys
  · exact StackManifest.findings_unreachable linked made
  · rw [size, Nat.sub_add_cancel most]
  · rw [Nat.sub_pos_iff_lt, fewer]
  · rw [StackManifest.specCount_of_graph linked made, size]
  · rw [StackManifest.findings_duplicate linked made, LinkedStack.duplicateIssues]
    simp only [Nat.sub_pos_iff_lt]
  · rw [LinkedStack.mem_reachableKeys, LinkedStack.isSome_hashOf?_iff walked]

namespace SharedBuild

def tool : SpecContent := { name := "tool", version := "1" }

def app : SpecContent := { name := "app", version := "1" }

/-- An entry of a manifest that needs others. -/
def member (key name : Text) (dependencies : List Text) : Text × Value :=
  (key, .mapping
    [("name", .text name), ("version", .text "1"), ("dependencies", .list (dependencies.map .text))])

/-- Two keys for one build below the root, and an entry that no root reaches. -/
def value : Value :=
  .mapping
    [("name", .text "stack"), ("roots", .list [.text "a"]),
     ("specs", .mapping
       [member "d" "app" ["a"], member "a" "app" ["b", "c"], member "b" "tool" [], member "c" "tool" []])]

def stack : LinkedStack where
  specs := value.manifest.specs
  roots := value.manifest.roots
  dependencies_known := by decide +kernel
  roots_known := by decide +kernel

def entries : List (Text × SpecEntry) :=
  [("d", ⟨app, ["a"]⟩), ("a", ⟨app, ["b", "c"]⟩), ("b", ⟨tool, []⟩), ("c", ⟨tool, []⟩)]

theorem entries_stack : stack.specs.entries = entries := by
  decide +kernel

theorem checked : value.checkManifest = .ok value.manifest := by
  have shaped : manifestFaults value = [] := by decide +kernel
  simp only [Value.checkManifest, shaped]

theorem linked : value.manifest.link = .ok stack :=
  dif_pos (by decide +kernel)

theorem exists_graph : ∃ graph, stack.graph = .ok graph ∧ decide (graph.size = 2) = true :=
  exists_ok_of_any (by decide +kernel)

theorem not_reachable : ¬ stack.Reachable "d" := by
  rw [← LinkedStack.mem_reachableKeys]
  decide +kernel

/-- The texts of both builds that the root reaches. -/
theorem payload_eq_or_eq {payload : Text} (listed : payload ∈ stack.payloads) :
    payload = app.payload [fingerprint (tool.payload []), fingerprint (tool.payload [])] ∨
      payload = tool.payload [] := by
  obtain ⟨key, tree, reachable, unfolds, rfl⟩ := listed
  cases unfolds with
  | @entry _ entry below found unfolds =>
    have listed := Table.get?_eq_some_iff.1 found
    simp only [entries_stack, entries, List.mem_cons, Prod.mk.injEq, List.not_mem_nil, or_false] at listed
    rcases listed with ⟨rfl, rfl⟩ | ⟨rfl, rfl⟩ | ⟨rfl, rfl⟩ | ⟨rfl, rfl⟩
    · exact absurd reachable not_reachable
    · left
      have leaf : stack.Unfolds "b" (.build tool []) := .leaf (by decide +kernel)
      have twin : stack.Unfolds "c" (.build tool []) := .leaf (by decide +kernel)
      have first := (unfolds "b" (by decide +kernel)).unique leaf
      have second := (unfolds "c" (by decide +kernel)).unique twin
      simp [SpecTree.payload, SpecTree.hash, first, second]
    · right
      simp [SpecTree.payload]
    · right
      simp [SpecTree.payload]

theorem injOn_payloads : Set.InjOn fingerprint stack.payloads := by
  have apart : fingerprint (app.payload [fingerprint (tool.payload []), fingerprint (tool.payload [])]) ≠
      fingerprint (tool.payload []) := by decide +kernel
  exact (Set.injOn_pair.2 fun same => absurd same apart).mono fun payload listed => payload_eq_or_eq listed

theorem issues_verify : value.verify.issues = [.unreachable "d", .duplicates 1 3] := by
  decide +kernel

end SharedBuild

open SharedBuild in
theorem Value.entries_reported_exactly_sharedBuild :
    value.verify.findings "SPEC-UNREACHABLE" = [.unreachable "d"] ∧
    value.verify.findings "SPEC-DUPLICATE" = [.duplicates 1 3] ∧
    ∃ reached builds repeats, stack.Census reached builds ∧ repeats + builds.length = reached.length ∧
      value.verify.specCount = some builds.length ∧ builds.length = 2 ∧
      value.verify.findings "SPEC-DUPLICATE" = if 0 < repeats then [.duplicates repeats reached.length] else [] := by
  obtain ⟨graph, made, size⟩ := exists_graph
  obtain ⟨_, ⟨reached, builds, repeats, census, total, _, count, duplicates⟩, _⟩ :=
    Value.entries_reported_exactly checked linked made injOn_payloads
  have two : value.verify.specCount = some 2 := by
    rw [verify_of_checked checked, StackManifest.specCount_of_graph linked made, of_decide_eq_true size]
  have pair := Option.some.inj (count.symm.trans two)
  have unreachable : value.verify.findings "SPEC-UNREACHABLE" = [.unreachable "d"] := by
    rw [Verification.findings, issues_verify]
    decide +kernel
  have duplicate : value.verify.findings "SPEC-DUPLICATE" = [.duplicates 1 3] := by
    rw [Verification.findings, issues_verify]
    decide +kernel
  exact ⟨unreachable, duplicate, reached, builds, repeats, census, total, count, pair, duplicates⟩

end BuildPipeline
