import BuildPipeline.Proofs.PolicyLoop

/-! Calls to prune one graph, each starting from the decisions of the one before.
A node leaves the build at the first call with a policy that matches it and stays
out with that decision, whatever later calls are told. -/

namespace BuildPipeline

/-- What may be pruned, and what is known from outside at the time. -/
structure PruneCall where
  options : PruneOptions
  signals : PruneSignals

namespace PruneCall

variable (graph : PipelineGraph) (call : PruneCall) (node : SpecNode)

/-- The policies of the call in the order in which they are asked. -/
def enabled : List PruningPolicy :=
  [.broken, .available, .unaffected, .external].filter fun policy => policy.enabled call.options

/-- The policy finds the node to be one that it prunes. -/
def Finds (policy : PruningPolicy) : Prop :=
  policy.applies graph call.signals call.options node = true

def Spares : Prop :=
  ∀ policy ∈ call.enabled, ¬ call.Finds graph node policy

/-- The first policy in order that finds the node gives status and reason. -/
def Prunes (decision : Decision) : Prop :=
  ∃ before policy after, call.enabled = before ++ policy :: after ∧
    (∀ earlier ∈ before, ¬ call.Finds graph node earlier) ∧ call.Finds graph node policy ∧
    decision = ⟨policy.status, policy.pruned⟩

/-- The words of all policies of the call for a node that they leave alone. -/
def keepReason : Text :=
  if call.enabled = [] then "no pruning enabled" else Text.join ", " (call.enabled.map PruningPolicy.kept)

end PruneCall

/-- Pruned already, with this decision. -/
def Pruning.PrunedAs (pruning : Pruning) (hash : Text) (decision : Decision) : Prop :=
  pruning.decision? hash = some decision ∧ decision.status ≠ .keep

/-- Kept, or not decided about at all. -/
def Pruning.IsOpen (pruning : Pruning) (hash : Text) : Prop :=
  ∀ decision, pruning.decision? hash = some decision → decision.status = .keep

/-- The decisions after all calls. -/
def PipelineGraph.pruneAll (graph : PipelineGraph) (previous : Pruning) (calls : List PruneCall) : Pruning :=
  calls.foldl (fun pruning call => graph.prune call.options call.signals pruning) previous

/-- What a run of calls makes of the nodes, whatever decisions it starts from. -/
structure PipelineGraph.PruneHistory (graph : PipelineGraph) (previous : Pruning) (calls : List PruneCall) :
    Prop where
  decided : ∀ done last, done ++ [last] <+: calls →
    (graph.pruneAll previous (done ++ [last])).map Prod.fst = graph.hashes
  carried : ∀ node ∈ graph.nodes, ∀ decision, previous.PrunedAs node.hash decision →
    ∀ done, done <+: calls → (graph.pruneAll previous done).decision? node.hash = some decision
  first : ∀ node ∈ graph.nodes, previous.IsOpen node.hash → ∀ done call, done ++ [call] <+: calls →
    (∀ earlier ∈ done, earlier.Spares graph node) → ¬ call.Spares graph node →
    ∃ decision, call.Prunes graph node decision ∧ ∀ later, done ++ call :: later <+: calls →
      (graph.pruneAll previous (done ++ call :: later)).decision? node.hash = some decision
  kept : ∀ node ∈ graph.nodes, ∀ done last, calls = done ++ [last] →
    ((graph.pruneAll previous calls).isKept node.hash = true ↔
      previous.IsOpen node.hash ∧ ∀ call ∈ calls, call.Spares graph node)
  reason : ∀ node ∈ graph.nodes, ∀ done last, calls = done ++ [last] →
    (graph.pruneAll previous calls).isKept node.hash = true →
    (graph.pruneAll previous calls).decision? node.hash = some ⟨.keep, last.keepReason⟩
  repeated : ∀ done last, calls = done ++ [last] →
    graph.prune last.options last.signals (graph.pruneAll previous calls) = graph.pruneAll previous calls

namespace PruneCall

variable {graph : PipelineGraph} {call : PruneCall} {node : SpecNode}

theorem Prunes.status_ne_keep {decision : Decision} (prunes : call.Prunes graph node decision) :
    decision.status ≠ .keep := by
  obtain ⟨before, policy, after, order, _, _, rfl⟩ := prunes
  have all : ∀ policy ∈ [PruningPolicy.broken, .available, .unaffected, .external], policy.status ≠ .keep := by
    simp [PruningPolicy.broken, PruningPolicy.available, PruningPolicy.unaffected, PruningPolicy.external]
  have listed : policy ∈ call.enabled := order ▸ by simp
  exact all policy (List.mem_filter.1 listed).1

theorem Prunes.not_spares {decision : Decision} (prunes : call.Prunes graph node decision) :
    ¬ call.Spares graph node := by
  obtain ⟨before, policy, after, order, _, finds, _⟩ := prunes
  exact fun spared => spared policy (order ▸ by simp) finds

/-- A decision made afresh is that of the first policy that finds the node, or else to keep it. -/
theorem decide_spec (graph : PipelineGraph) (call : PruneCall) (node : SpecNode) :
    let decision := Pruning.decide graph call.options call.signals node
    call.Prunes graph node decision ∨ call.Spares graph node ∧ decision = ⟨.keep, call.keepReason⟩ := by
  intro decision
  have enabled : PruningPolicy.all.filter (·.enabled call.options) = call.enabled := rfl
  cases found : call.enabled.find? fun policy => policy.applies graph call.signals call.options node with
  | some policy =>
    have made : decision = ⟨policy.status, policy.pruned⟩ := by
      simp only [decision, Pruning.decide, enabled, found]
    obtain ⟨finds, before, after, order, passed⟩ := List.find?_eq_some_iff_append.1 found
    refine .inl ⟨before, policy, after, order, fun earlier member => ?_, finds, made⟩
    simpa [Finds] using passed earlier member
  | none =>
    refine .inr ⟨List.find?_eq_none.1 found, ?_⟩
    simp only [decision, Pruning.decide, enabled, found, Pruning.keepDecision, keepReason, List.isEmpty_iff,
      List.map_eq_nil_iff]

theorem prunes_decide (touched : ¬ call.Spares graph node) :
    call.Prunes graph node (Pruning.decide graph call.options call.signals node) :=
  (decide_spec graph call node).resolve_right fun spared => touched spared.1

theorem decide_of_spares (spared : call.Spares graph node) :
    Pruning.decide graph call.options call.signals node = ⟨.keep, call.keepReason⟩ := by
  rcases decide_spec graph call node with prunes | ⟨_, made⟩
  · exact absurd spared prunes.not_spares
  · exact made

end PruneCall

namespace Pruning

variable {pruning : Pruning} {hash : Text} {decision : Decision}

theorem isOpen_iff : pruning.IsOpen hash ↔ ∀ decision, ¬ pruning.PrunedAs hash decision := by
  simp [IsOpen, PrunedAs]

theorem carried?_eq_some_iff : pruning.carried? hash = some decision ↔ pruning.PrunedAs hash decision := by
  simp [carried?, PrunedAs, Option.filter_eq_some_iff]

theorem carried?_eq_none_iff : pruning.carried? hash = none ↔ pruning.IsOpen hash := by
  simp [carried?, IsOpen, Option.filter_eq_none_iff]

theorem isKept_iff : pruning.isKept hash = true ↔
    ∃ decision, pruning.decision? hash = some decision ∧ decision.status = .keep := by
  simp [isKept]

end Pruning

namespace PipelineGraph

variable {graph : PipelineGraph} {call : PruneCall} {node : SpecNode} {previous : Pruning}

theorem keys_prune (graph : PipelineGraph) (options : PruneOptions) (signals : PruneSignals)
    (previous : Pruning) : (graph.prune options signals previous).map Prod.fst = graph.hashes := by
  rw [prune_eq, List.map_map, hashes]
  rfl

theorem decision?_prune (listed : node ∈ graph.nodes) (options : PruneOptions) (signals : PruneSignals)
    (previous : Pruning) : (graph.prune options signals previous).decision? node.hash =
      some ((previous.carried? node.hash).getD (Pruning.decide graph options signals node)) := by
  have unique : ((graph.prune options signals previous).map Prod.fst).Nodup := by
    rw [keys_prune]
    exact graph.hashes_unique
  refine (lookup_eq_some_iff_mem unique).2 ?_
  rw [prune_eq]
  exact List.mem_map.2 ⟨node, listed, rfl⟩

/-- A decision to prune is carried over. -/
theorem prune_carries (listed : node ∈ graph.nodes) (options : PruneOptions) (signals : PruneSignals)
    {decision : Decision} (pruned : previous.PrunedAs node.hash decision) :
    (graph.prune options signals previous).PrunedAs node.hash decision := by
  refine ⟨?_, pruned.2⟩
  rw [decision?_prune listed, Pruning.carried?_eq_some_iff.2 pruned, Option.getD_some]

/-- Every other node is decided about afresh. -/
theorem prune_decides (listed : node ∈ graph.nodes) (options : PruneOptions) (signals : PruneSignals)
    (undecided : previous.IsOpen node.hash) :
    (graph.prune options signals previous).decision? node.hash =
      some (Pruning.decide graph options signals node) := by
  rw [decision?_prune listed, Pruning.carried?_eq_none_iff.2 undecided, Option.getD_none]

/-- A node is open after a call when it was before and the call spares it. -/
theorem isOpen_prune_iff (listed : node ∈ graph.nodes) :
    (graph.prune call.options call.signals previous).IsOpen node.hash ↔
      previous.IsOpen node.hash ∧ call.Spares graph node := by
  constructor
  · intro after
    have before : previous.IsOpen node.hash := by
      refine Pruning.isOpen_iff.2 fun decision pruned => ?_
      exact Pruning.isOpen_iff.1 after decision (prune_carries listed call.options call.signals pruned)
    refine ⟨before, by_contra fun touched => ?_⟩
    have prunes := PruneCall.prunes_decide touched
    exact prunes.status_ne_keep (after _ (prune_decides listed call.options call.signals before))
  · rintro ⟨before, spared⟩ decision found
    rw [prune_decides listed _ _ before, PruneCall.decide_of_spares spared] at found
    rw [← Option.some.inj found]

theorem pruneAll_append (first second : List PruneCall) :
    graph.pruneAll previous (first ++ second) = graph.pruneAll (graph.pruneAll previous first) second :=
  List.foldl_append

theorem pruneAll_carries (listed : node ∈ graph.nodes) {decision : Decision} (calls : List PruneCall)
    (pruned : previous.PrunedAs node.hash decision) :
    (graph.pruneAll previous calls).PrunedAs node.hash decision := by
  induction calls generalizing previous with
  | nil => exact pruned
  | cons call rest ih => exact ih (prune_carries listed call.options call.signals pruned)

theorem isOpen_pruneAll_iff (listed : node ∈ graph.nodes) (calls : List PruneCall) :
    (graph.pruneAll previous calls).IsOpen node.hash ↔
      previous.IsOpen node.hash ∧ ∀ call ∈ calls, call.Spares graph node := by
  induction calls generalizing previous with
  | nil => simp [pruneAll]
  | cons call rest ih =>
    rw [List.forall_mem_cons, ← and_assoc, ← isOpen_prune_iff listed]
    exact ih

/-- Kept nodes are the open ones, for a call decides about every node. -/
theorem isKept_prune_iff (listed : node ∈ graph.nodes) :
    (graph.prune call.options call.signals previous).isKept node.hash = true ↔
      (graph.prune call.options call.signals previous).IsOpen node.hash := by
  rw [Pruning.isKept_iff]
  constructor
  · rintro ⟨decision, found, kept⟩ other again
    rwa [← Option.some.inj (found.symm.trans again)]
  · intro after
    have before := ((isOpen_prune_iff listed).1 after).1
    have found := prune_decides listed call.options call.signals before
    exact ⟨_, found, after _ found⟩

theorem decision?_of_isKept_prune (listed : node ∈ graph.nodes)
    (kept : (graph.prune call.options call.signals previous).isKept node.hash = true) :
    (graph.prune call.options call.signals previous).decision? node.hash = some ⟨.keep, call.keepReason⟩ := by
  obtain ⟨before, spared⟩ := (isOpen_prune_iff listed).1 ((isKept_prune_iff listed).1 kept)
  rw [prune_decides listed _ _ before, PruneCall.decide_of_spares spared]

/-- Without signals only external builds are pruned, unless just what is affected is asked for. -/
theorem keptNodes_without_signals {options : PruneOptions} (whole : options.affectedOnly = false)
    (own : ∀ node ∈ graph.nodes, node.external = false) :
    graph.keptNodes (graph.prune options {} []) = graph.nodes := by
  refine List.filter_eq_self.2 fun node listed => ?_
  have spared : PruneCall.Spares graph ⟨options, {}⟩ node := by
    intro policy enabled
    obtain ⟨named, asked⟩ := List.mem_filter.1 enabled
    simp only [List.mem_cons, List.not_mem_nil, or_false] at named
    rcases named with rfl | rfl | rfl | rfl
    · simp [PruneCall.Finds, PruningPolicy.broken]
    · simp [PruneCall.Finds, PruningPolicy.available]
    · simp [PruningPolicy.unaffected, whole] at asked
    · simp [PruneCall.Finds, PruningPolicy.external, own node listed]
  have undecided : Pruning.IsOpen [] node.hash := nofun
  have decided := prune_decides listed options {} undecided
  have left : (graph.prune options {} []).IsOpen node.hash := (isOpen_prune_iff listed).2 ⟨undecided, spared⟩
  exact Pruning.isKept_iff.2 ⟨_, decided, left _ decided⟩

/-- A call on its own result changes nothing. -/
theorem prune_prune (graph : PipelineGraph) (options : PruneOptions) (signals : PruneSignals)
    (previous : Pruning) :
    graph.prune options signals (graph.prune options signals previous) = graph.prune options signals previous := by
  rw [prune_eq, prune_eq]
  refine List.map_congr_left fun node listed => Prod.ext rfl ?_
  rw [← prune_eq]
  by_cases before : previous.IsOpen node.hash
  · rw [Pruning.carried?_eq_none_iff.2 before, Pruning.carried?, prune_decides listed options signals before]
    by_cases kept : (Pruning.decide graph options signals node).status = .keep <;> simp [Option.filter, kept]
  · rw [Pruning.isOpen_iff, not_forall_not] at before
    obtain ⟨decision, pruned⟩ := before
    have again := prune_carries listed options signals pruned
    rw [Pruning.carried?_eq_some_iff.2 again, Pruning.carried?_eq_some_iff.2 pruned]

/-- Decisions to prune never change along a run, and a node that no call touches is kept. -/
theorem pruneAll_history (graph : PipelineGraph) (previous : Pruning) (calls : List PruneCall) :
    graph.PruneHistory previous calls := by
  constructor
  case decided =>
    intro done last _
    rw [pruneAll_append]
    exact keys_prune graph last.options last.signals _
  case carried =>
    intro node listed decision pruned done _
    exact (pruneAll_carries listed done pruned).1
  case first =>
    intro node listed before done call _ spared touched
    have prunes := PruneCall.prunes_decide touched
    refine ⟨_, prunes, fun later _ => ?_⟩
    have still := (isOpen_pruneAll_iff listed done).2 ⟨before, spared⟩
    have decided := prune_decides listed call.options call.signals still
    rw [pruneAll_append]
    exact (pruneAll_carries listed later ⟨decided, prunes.status_ne_keep⟩).1
  case kept =>
    rintro node listed done last rfl
    rw [← isOpen_pruneAll_iff listed, pruneAll_append]
    exact isKept_prune_iff listed
  case reason =>
    rintro node listed done last rfl kept
    rw [pruneAll_append] at kept ⊢
    exact decision?_of_isKept_prune listed kept
  case repeated =>
    rintro done last rfl
    rw [pruneAll_append]
    exact prune_prune graph last.options last.signals _

end PipelineGraph

end BuildPipeline
