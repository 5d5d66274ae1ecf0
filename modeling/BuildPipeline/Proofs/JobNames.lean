import BuildPipeline.Platform.JobKeys
import BuildPipeline.Proofs.FirstFailure
import BuildPipeline.Proofs.Tables

/-! Keys of jobs are given out one node after another. Either no two builds have one
key, or the run stops at the first node whose key another build has. A build that
is listed more than once is no rival of its own. -/

namespace BuildPipeline

variable {keyOf : SpecNode → Text} {nodes : List SpecNode}

/-- Nodes with one key are the same build. -/
def KeysApart (keyOf : SpecNode → Text) (nodes : List SpecNode) : Prop :=
  ∀ first ∈ nodes, ∀ second ∈ nodes, keyOf first = keyOf second → first.hash = second.hash

theorem KeysApart.append_singleton {node : SpecNode} (apart : KeysApart keyOf nodes)
    (free : ∀ owner ∈ nodes, keyOf owner = keyOf node → owner.hash = node.hash) : KeysApart keyOf (nodes ++ [node]) := by
  intro first listed second listedToo same
  rcases List.mem_append.1 listed with earlier | last <;> rcases List.mem_append.1 listedToo with earlierToo | lastToo
  · exact apart first earlier second earlierToo same
  · obtain rfl := List.mem_singleton.1 lastToo
    exact free first earlier same
  · obtain rfl := List.mem_singleton.1 last
    exact (free second earlierToo same.symm).symm
  · rw [List.mem_singleton.1 last, List.mem_singleton.1 lastToo]

theorem KeysApart.nodup (apart : KeysApart keyOf nodes) (unique : (nodes.map SpecNode.hash).Nodup) :
    (nodes.map keyOf).Nodup :=
  unique.of_map _ |>.map_on fun _ listed _ other same =>
    List.inj_on_of_nodup_map unique listed other (apart _ listed _ other same)

namespace JobKeys

/-- One entry for each node. -/
def ofNodes (keyOf : SpecNode → Text) (nodes : List SpecNode) : JobKeys :=
  nodes.map fun node => (node.hash, keyOf node)

def ownersOf (keyOf : SpecNode → Text) (nodes : List SpecNode) : List (Text × Text) :=
  nodes.map fun node => (keyOf node, node.hash)

end JobKeys

namespace KeyDraft

/-- What is known after all of the nodes got their keys. -/
def ofNodes (keyOf : SpecNode → Text) (nodes : List SpecNode) : KeyDraft where
  keys := assignEntries [] (JobKeys.ofNodes keyOf nodes)
  owners := assignEntries [] (JobKeys.ownersOf keyOf nodes)

theorem give_ofNodes (keyOf : SpecNode → Text) (nodes : List SpecNode) (node : SpecNode) :
    (ofNodes keyOf nodes).give (keyOf node) node.hash = ofNodes keyOf (nodes ++ [node]) := by
  simp only [give, ofNodes, JobKeys.ofNodes, JobKeys.ownersOf, assignEntries, List.map_append, List.map_singleton,
    List.foldl_append, List.foldl_cons, List.foldl_nil]

theorem keyOf_ne_of_lookup {key : Text} (free : (ofNodes keyOf nodes).owners.lookup key = none) :
    ∀ owner ∈ nodes, keyOf owner ≠ key := by
  rw [ofNodes, lookup_assignEntries, Option.or_eq_none_iff, List.lookup_eq_none_iff] at free
  rintro owner listed rfl
  have entry : (keyOf owner, owner.hash) ∈ (JobKeys.ownersOf keyOf nodes).reverse :=
    List.mem_reverse.2 (List.mem_map_of_mem listed)
  simpa using free.1 _ entry

theorem exists_owner_of_lookup {key hash : Text} (found : (ofNodes keyOf nodes).owners.lookup key = some hash) :
    ∃ owner ∈ nodes, keyOf owner = key ∧ owner.hash = hash := by
  rw [ofNodes, lookup_assignEntries, Option.or_eq_some_iff] at found
  rcases found with listed | ⟨_, impossible⟩
  · obtain ⟨owner, member, same⟩ := List.mem_map.1 (List.mem_reverse.1 (mem_of_lookup listed))
    exact ⟨owner, member, congrArg Prod.fst same, congrArg Prod.snd same⟩
  · cases impossible

/-- One node more, after nodes whose keys are apart. -/
theorem add_ofNodes (node : SpecNode) (apart : KeysApart keyOf nodes) :
    KeysApart keyOf (nodes ++ [node]) ∧ add keyOf (ofNodes keyOf nodes) node = .ok (ofNodes keyOf (nodes ++ [node])) ∨
      ∃ owner ∈ nodes, keyOf owner = keyOf node ∧ owner.hash ≠ node.hash ∧
        add keyOf (ofNodes keyOf nodes) node = .error (.duplicateJob (keyOf node) owner.hash node.hash) := by
  cases found : (ofNodes keyOf nodes).owners.lookup (keyOf node) with
  | none =>
    exact .inl ⟨apart.append_singleton fun owner listed same => absurd same (keyOf_ne_of_lookup found owner listed),
      by simp only [add, found, give_ofNodes]⟩
  | some hash =>
    obtain ⟨owner, listed, same, rfl⟩ := exists_owner_of_lookup found
    by_cases again : owner.hash = node.hash
    · refine .inl ⟨apart.append_singleton fun other also alike => ?_, by simp only [add, found, if_pos again, give_ofNodes]⟩
      rw [← again]
      exact apart other also owner listed (alike.trans same.symm)
    · exact .inr ⟨owner, listed, same, again, by simp only [add, found, if_neg again]⟩

end KeyDraft

/-- A node whose key an owner in front of it has, where the nodes in front have keys
of their own. -/
structure KeyClash (keyOf : SpecNode → Text) (nodes : List SpecNode) (owner node : SpecNode) : Prop where
  same_key : keyOf owner = keyOf node
  first : ∃ before after, nodes = before ++ node :: after ∧ owner ∈ before ∧ (before.map keyOf).Nodup

theorem KeyClash.hash_ne {owner node : SpecNode}
    (clash : KeyClash keyOf nodes owner node) (unique : (nodes.map SpecNode.hash).Nodup) :
    owner.hash ≠ node.hash := by
  obtain ⟨before, after, rfl, listed, _⟩ := clash.first
  rw [List.map_append, List.nodup_append] at unique
  exact unique.2.2 _ (List.mem_map_of_mem listed) _ (by simp)

theorem KeyClash.not_nodup {owner node : SpecNode}
    (clash : KeyClash keyOf nodes owner node) : ¬ (nodes.map keyOf).Nodup := by
  obtain ⟨before, after, rfl, listed, _⟩ := clash.first
  intro apart
  rw [List.map_append, List.nodup_append] at apart
  exact apart.2.2 _ (List.mem_map_of_mem listed) _ (by simp) clash.same_key

/-- The first node whose key another build has, and a node of that build in front of it. -/
structure FirstClash (keyOf : SpecNode → Text) (nodes : List SpecNode) (owner node : SpecNode) : Prop where
  same_key : keyOf owner = keyOf node
  other_build : owner.hash ≠ node.hash
  first : ∃ before after, nodes = before ++ node :: after ∧ owner ∈ before ∧ KeysApart keyOf before

theorem FirstClash.not_keysApart {owner node : SpecNode} (clash : FirstClash keyOf nodes owner node) :
    ¬ KeysApart keyOf nodes := by
  obtain ⟨before, after, rfl, listed, _⟩ := clash.first
  exact fun apart => clash.other_build (apart owner (by simp [listed]) node (by simp) clash.same_key)

theorem foldlM_add_ofNodes (keyOf : SpecNode → Text) (rest done : List SpecNode) (apart : KeysApart keyOf done) :
    rest.foldlM (KeyDraft.add keyOf) (KeyDraft.ofNodes keyOf done) = .ok (KeyDraft.ofNodes keyOf (done ++ rest)) ∧
        KeysApart keyOf (done ++ rest) ∨
      ∃ owner node, FirstClash keyOf (done ++ rest) owner node ∧
        rest.foldlM (KeyDraft.add keyOf) (KeyDraft.ofNodes keyOf done) =
          .error (.duplicateJob (keyOf node) owner.hash node.hash) := by
  induction rest generalizing done with
  | nil => exact .inl ⟨by rw [List.append_nil]; rfl, by rwa [List.append_nil]⟩
  | cons node rest ih =>
    rw [List.foldlM_cons]
    rcases KeyDraft.add_ofNodes node apart with ⟨longer, added⟩ | ⟨owner, listed, same, other, stopped⟩
    · rw [List.append_cons]
      simpa only [added, bind, Except.bind] using ih (done ++ [node]) longer
    · exact .inr ⟨owner, node, ⟨same, other, done, rest, rfl, listed, apart⟩, by rw [stopped]; rfl⟩

/-- Either every node gets its key, or a clash ends the run. -/
theorem jobKeys_outcome (keyOf : SpecNode → Text) (nodes : List SpecNode) :
    jobKeys nodes keyOf = .ok (assignEntries [] (JobKeys.ofNodes keyOf nodes)) ∧ KeysApart keyOf nodes ∨
      ∃ owner node, FirstClash keyOf nodes owner node ∧
        jobKeys nodes keyOf = .error (.duplicateJob (keyOf node) owner.hash node.hash) := by
  have none : KeysApart keyOf [] := fun _ listed => nomatch listed
  rcases foldlM_add_ofNodes keyOf nodes [] none with ⟨given, apart⟩ | ⟨owner, node, clash, stopped⟩
  · exact .inl ⟨congrArg (Except.map KeyDraft.keys) given, apart⟩
  · exact .inr ⟨owner, node, clash, congrArg (Except.map KeyDraft.keys) stopped⟩

theorem jobKeys_spec (keyOf : SpecNode → Text) {nodes : List SpecNode} (unique : (nodes.map SpecNode.hash).Nodup) :
    jobKeys nodes keyOf = .ok (JobKeys.ofNodes keyOf nodes) ∧ (nodes.map keyOf).Nodup ∨
      ∃ owner node, KeyClash keyOf nodes owner node ∧
        jobKeys nodes keyOf = .error (.duplicateJob (keyOf node) owner.hash node.hash) := by
  rcases jobKeys_outcome keyOf nodes with ⟨given, apart⟩ | ⟨owner, node, clash, stopped⟩
  · have once : (([] ++ JobKeys.ofNodes keyOf nodes).map Prod.fst).Nodup := by
      simpa [JobKeys.ofNodes, Function.comp_def] using unique
    exact .inl ⟨given.trans (congrArg Except.ok (assignEntries_of_nodup _ [] once)), apart.nodup unique⟩
  · obtain ⟨before, after, rfl, listed, apart⟩ := clash.first
    rw [List.map_append, List.nodup_append] at unique
    exact .inr ⟨owner, node, ⟨clash.same_key, before, after, rfl, listed, apart.nodup unique.1⟩, stopped⟩

/-- What is made of the keys is made of those of all nodes, or not at all. -/
theorem map_jobKeys {α : Type _} (keyOf : SpecNode → Text) {nodes : List SpecNode}
    (unique : (nodes.map SpecNode.hash).Nodup) (finish : JobKeys → α) :
    (jobKeys nodes keyOf).map finish = .ok (finish (JobKeys.ofNodes keyOf nodes)) ∧ (nodes.map keyOf).Nodup ∨
      ∃ owner node, KeyClash keyOf nodes owner node ∧
        (jobKeys nodes keyOf).map finish = .error (.duplicateJob (keyOf node) owner.hash node.hash) := by
  rcases jobKeys_spec keyOf unique with ⟨given, apart⟩ | ⟨owner, node, clash, stopped⟩
  · exact .inl ⟨by rw [given]; rfl, apart⟩
  · exact .inr ⟨owner, node, clash, by rw [stopped]; rfl⟩

end BuildPipeline
