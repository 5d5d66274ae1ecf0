import BuildPipeline.Proofs.Acyclicity

/-! The loop over the policies, seen from one node. What becomes of a node depends on the
node alone, so every pass over the open nodes is one step for each of them, and the
passes together find the first policy that applies. -/

namespace BuildPipeline

/-- A fold that visits each item once changes what is seen of an item where it visits it. -/
theorem view_foldl {σ β γ : Type _} [DecidableEq β] {step : σ → β → σ} {view : σ → γ} {change : γ → γ} {item : β}
    {items : List β} (own : ∀ state, view (step state item) = change (view state))
    (others : ∀ other ∈ items, other ≠ item → ∀ state, view (step state other) = view state)
    (once : items.Nodup) (state : σ) :
    view (items.foldl step state) = if item ∈ items then change (view state) else view state := by
  induction items generalizing state with
  | nil => simp
  | cons first rest ih =>
    obtain ⟨alone, once⟩ := List.nodup_cons.1 once
    obtain ⟨head, others⟩ := List.forall_mem_cons.1 others
    rw [List.foldl_cons, ih others once]
    by_cases same : first = item
    · subst same
      simp [alone, own]
    · simp [Ne.symm same, head same]

namespace Pruning

/-- A decision without regard to earlier ones. -/
def decide (graph : PipelineGraph) (options : PruneOptions) (signals : PruneSignals) (node : SpecNode) :
    Decision :=
  let enabled := PruningPolicy.all.filter (·.enabled options)
  match enabled.find? fun policy => policy.applies graph signals options node with
  | some policy => ⟨policy.status, policy.pruned⟩
  | none => keepDecision (enabled.map PruningPolicy.kept)

end Pruning

namespace PruneDraft

variable {graph : PipelineGraph} {options : PruneOptions} {signals : PruneSignals} {previous : Pruning}
variable {policy : PruningPolicy} {node : SpecNode}

/-- What a draft says of a node: the decision about it, or what speaks for keeping it. -/
def fate (hash : Text) (draft : PruneDraft) : Option Decision × Option (List Text) :=
  (draft.decided.lookup hash, draft.keepReasons.lookup hash)

theorem mem_openHashes {draft : PruneDraft} {hash : Text} :
    hash ∈ draft.openHashes ↔ (draft.fate hash).2.isSome = true := by
  constructor
  · intro listed
    obtain ⟨reasons, found⟩ := exists_lookup_of_mem listed
    rw [fate, found, Option.isSome_some]
  · intro found
    by_contra absent
    rw [fate, lookup_eq_none absent, Option.isSome_none] at found
    cases found

theorem fate_settle (draft : PruneDraft) (hash other : Text) (decision : Decision) :
    (draft.settle hash decision).fate other =
      if other = hash then ((draft.decided.lookup hash).or (some decision), none) else draft.fate other := by
  simp only [fate, settle, List.lookup_append, lookup_filter_key (fun key => decide (key ≠ hash)), lookup_cons_eq]
  by_cases same : other = hash <;> simp [same]

theorem fate_addReason (draft : PruneDraft) (hash other reason : Text) :
    (draft.addReason hash reason).fate other =
      if other = hash then (draft.decided.lookup hash, (draft.keepReasons.lookup hash).map (· ++ [reason]))
      else draft.fate other := by
  simp only [fate, addReason, lookup_updated (· ++ [reason])]
  by_cases same : other = hash <;> simp [same]

/-- What a policy makes of a node that it is asked about. -/
def judged (policy : PruningPolicy) (applies : Bool) (fate : Option Decision × Option (List Text)) :
    Option Decision × Option (List Text) :=
  if applies then (fate.1.or (some ⟨policy.status, policy.pruned⟩), none)
  else (fate.1, fate.2.map (· ++ [policy.kept]))

theorem fate_consider (listed : node ∈ graph.nodes) (applies : SpecNode → Bool) (draft : PruneDraft) :
    (consider graph policy applies draft node.hash).fate node.hash =
      judged policy (applies node) (draft.fate node.hash) := by
  simp only [consider, PipelineGraph.get?_eq_some_iff.2 ⟨listed, rfl⟩, judged]
  split
  next => rw [fate_settle, if_pos rfl, fate]
  next => rw [fate_addReason, if_pos rfl, fate]

theorem fate_consider_of_ne {hash other : Text} (apart : other ≠ hash) (applies : SpecNode → Bool)
    (draft : PruneDraft) : (consider graph policy applies draft other).fate hash = draft.fate hash := by
  unfold consider
  split
  next => rfl
  next =>
    split
    next => rw [fate_settle, if_neg apart.symm]
    next => rw [fate_addReason, if_neg apart.symm]

theorem openHashes_addReason (draft : PruneDraft) (hash reason : Text) :
    (draft.addReason hash reason).openHashes = draft.openHashes := by
  rw [openHashes, addReason, List.map_map, openHashes]
  refine List.map_congr_left fun entry _ => ?_
  by_cases same : entry.1 = hash <;> simp [same]

theorem openHashes_consider (applies : SpecNode → Bool) (draft : PruneDraft) (hash : Text) :
    (consider graph policy applies draft hash).openHashes.Sublist draft.openHashes := by
  unfold consider
  split
  next => exact .refl _
  next =>
    split
    next => exact List.filter_sublist.map Prod.fst
    next => rw [openHashes_addReason]

section Asking

variable (options : PruneOptions) (signals : PruneSignals) {draft : PruneDraft}

theorem nodup_openHashes_ask (graph : PipelineGraph) (policy : PruningPolicy) (once : draft.openHashes.Nodup) :
    (ask graph options signals draft policy).openHashes.Nodup := by
  have run (hashes : List Text) (draft : PruneDraft) :
      (hashes.foldl (consider graph policy (policy.applies graph signals options)) draft).openHashes.Sublist
        draft.openHashes := by
    induction hashes generalizing draft with
    | nil => exact .refl _
    | cons hash rest ih => exact (ih _).trans (openHashes_consider _ draft hash)
  unfold ask
  split
  next => exact once.sublist (run _ draft)
  next => exact once

variable (listed : node ∈ graph.nodes) (once : draft.openHashes.Nodup)
include listed once

/-- A pass of a policy is one step for every node that is open. -/
theorem fate_ask (policy : PruningPolicy) :
    (ask graph options signals draft policy).fate node.hash =
      if policy.enabled options = true ∧ (draft.fate node.hash).2.isSome = true then
        judged policy (policy.applies graph signals options node) (draft.fate node.hash)
      else draft.fate node.hash := by
  simp only [← mem_openHashes]
  unfold ask
  by_cases enabled : policy.enabled options = true
  · rw [if_pos enabled, view_foldl (fate_consider listed _) (fun _ _ apart => fate_consider_of_ne apart _) once]
    simp [enabled]
  · simp [enabled]

/-- A decision stands through all that comes after it. -/
theorem fate_foldl_ask_of_decided (policies : List PruningPolicy) {decision : Decision}
    (decided : draft.fate node.hash = (some decision, none)) :
    (policies.foldl (ask graph options signals) draft).fate node.hash = (some decision, none) := by
  induction policies generalizing draft with
  | nil => exact decided
  | cons policy rest ih =>
    refine ih (nodup_openHashes_ask options signals graph policy once) ?_
    rw [fate_ask options signals listed once, decided]
    simp

/-- The first enabled policy that applies to an open node decides, and all of them give
their reasons when none does. -/
theorem fate_foldl_ask_of_open (policies : List PruningPolicy) {reasons : List Text}
    (still : draft.fate node.hash = (none, some reasons)) :
    (policies.foldl (ask graph options signals) draft).fate node.hash =
      match (policies.filter (·.enabled options)).find? (·.applies graph signals options node) with
      | some policy => (some ⟨policy.status, policy.pruned⟩, none)
      | none => (none, some (reasons ++ (policies.filter (·.enabled options)).map PruningPolicy.kept)) := by
  induction policies generalizing draft reasons with
  | nil => simpa using still
  | cons policy rest ih =>
    have later := nodup_openHashes_ask options signals graph policy once
    have asked := fate_ask options signals listed once policy
    rw [still] at asked
    -- Only a policy that is enabled and does not apply adds a reason and leaves the node open.
    by_cases enabled : policy.enabled options = true
    · by_cases applies : policy.applies graph signals options node = true
      · simp only [List.filter_cons, enabled, List.find?_cons, applies, if_true]
        refine fate_foldl_ask_of_decided options signals listed later rest ?_
        simpa [enabled, applies, judged] using asked
      · have spared : (ask graph options signals draft policy).fate node.hash =
            (none, some (reasons ++ [policy.kept])) := by simpa [enabled, applies, judged] using asked
        rw [List.foldl_cons, ih later spared]
        simp [enabled, applies]
    · have passed : (ask graph options signals draft policy).fate node.hash = (none, some reasons) := by
        simpa [enabled] using asked
      rw [List.foldl_cons, ih later passed]
      simp [enabled]

end Asking

/-- What becomes of a node that is entered, with the decision that it had before. -/
def entered (earlier : Option Decision) (fate : Option Decision × Option (List Text)) :
    Option Decision × Option (List Text) :=
  match earlier with
  | some decision => (fate.1.or (some decision), fate.2)
  | none => (fate.1, fate.2.or (some []))

theorem fate_enter (draft : PruneDraft) (node : SpecNode) :
    (enter previous draft node).fate node.hash = entered (previous.carried? node.hash) (draft.fate node.hash) := by
  unfold enter entered
  cases previous.carried? node.hash <;> simp [fate, List.lookup_append]

theorem fate_enter_of_ne {node other : SpecNode} (apart : other.hash ≠ node.hash) (draft : PruneDraft) :
    (enter previous draft other).fate node.hash = draft.fate node.hash := by
  unfold enter
  cases previous.carried? other.hash <;> simp [fate, List.lookup_append, lookup_cons_eq, apart.symm]

theorem fate_foldl_enter (previous : Pruning) (listed : node ∈ graph.nodes) :
    (graph.nodes.foldl (enter previous) {}).fate node.hash = entered (previous.carried? node.hash) (none, none) := by
  have others : ∀ other ∈ graph.nodes, other ≠ node → ∀ draft : PruneDraft,
      (enter previous draft other).fate node.hash = draft.fate node.hash := fun other also different =>
    fate_enter_of_ne fun same => different (PipelineGraph.eq_of_hash_eq also listed same)
  have once : graph.nodes.Nodup := .of_map _ graph.hashes_unique
  rw [view_foldl (fun draft => fate_enter draft node) others once, if_pos listed]
  rfl

theorem nodup_openHashes_foldl_enter (graph : PipelineGraph) (previous : Pruning) :
    (graph.nodes.foldl (enter previous) {}).openHashes.Nodup := by
  have run (nodes : List SpecNode) (draft : PruneDraft) :
      (nodes.foldl (enter previous) draft).openHashes.Sublist (draft.openHashes ++ nodes.map SpecNode.hash) := by
    induction nodes generalizing draft with
    | nil => simp
    | cons node rest ih =>
      refine (ih _).trans ?_
      unfold enter
      cases previous.carried? node.hash <;> simp [openHashes]
  exact graph.hashes_unique.sublist (run graph.nodes {})

theorem decision?_finish (draft : PruneDraft) (hash : Text) :
    draft.finish.decision? hash = (draft.fate hash).1.or ((draft.fate hash).2.map Pruning.keepDecision) := by
  rw [Pruning.decision?, finish, List.lookup_append, lookup_mapValues, fate]

/-- All policies together decide about a node, unless its decision was made before. -/
theorem decision?_foldl_ask (options : PruneOptions) (signals : PruneSignals) (previous : Pruning)
    (listed : node ∈ graph.nodes) :
    let draft := PruningPolicy.all.foldl (ask graph options signals) (graph.nodes.foldl (enter previous) {})
    draft.finish.decision? node.hash =
      some ((previous.carried? node.hash).getD (Pruning.decide graph options signals node)) := by
  intro draft
  have once := nodup_openHashes_foldl_enter graph previous
  have start := fate_foldl_enter previous listed
  cases carried : previous.carried? node.hash with
  | some earlier =>
    rw [carried] at start
    have told : draft.fate node.hash = _ := fate_foldl_ask_of_decided options signals listed once _ start
    rw [decision?_finish, told]
    rfl
  | none =>
    rw [carried] at start
    have told : draft.fate node.hash = _ := fate_foldl_ask_of_open options signals listed once _ start
    rw [decision?_finish, told, Pruning.decide]
    split <;> rfl

end PruneDraft

/-- The loop over the policies decides about every node by itself. -/
theorem PipelineGraph.prune_eq (graph : PipelineGraph) (options : PruneOptions) (signals : PruneSignals)
    (previous : Pruning) : graph.prune options signals previous = graph.nodes.map fun node =>
      (node.hash, (previous.carried? node.hash).getD (Pruning.decide graph options signals node)) := by
  rw [prune, hashes, List.filterMap_map, ← List.filterMap_eq_map]
  refine List.filterMap_congr fun node listed => ?_
  simp only [Function.comp_apply, PruneDraft.decision?_foldl_ask options signals previous listed, Option.map_some]

end BuildPipeline
