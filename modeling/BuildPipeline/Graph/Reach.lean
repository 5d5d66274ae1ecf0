import BuildPipeline.Sorting

/-! Members reached from a start by following steps: whatever can be reached, with a
stack of what is still to be looked at, or what some levels of steps come to. -/

namespace BuildPipeline.Reach

/-- Steps from one of finitely many members to others. -/
structure Steps (α : Type _) where
  members : List α
  next : α → List α
  unique : members.Nodup
  inside : ∀ source, ∀ member ∈ next source, member ∈ members
  outside : ∀ source, source ∉ members → next source = []

theorem length_flatMap_filter_le {α β : Type _} (keep : α → Bool) (onward : α → List β) (sources : List α) :
    ((sources.filter keep).flatMap onward).length ≤ (sources.flatMap onward).length := by
  induction sources with
  | nil => exact Nat.le_refl _
  | cons source rest ih =>
    by_cases kept : keep source = true
    · simpa [kept] using ih
    · simpa [kept] using Nat.le_add_left_of_le ih

variable {α : Type _} [DecidableEq α]

namespace Steps

variable (steps : Steps α)

/-- The ends of the steps from `source` as they go on top of a stack, the last one uppermost. -/
def stacked (source : α) : List α :=
  (steps.next source).reverse

def unseen (seen : List α) : List α :=
  steps.members.filter (· ∉ seen)

/-- What is still to come of the members that are not seen: each of them, and the ends of
its steps. -/
def ahead (seen : List α) : List α :=
  (steps.unseen seen).flatMap fun source => source :: steps.next source

theorem unseen_append (seen more : List α) :
    steps.unseen (seen ++ more) = (steps.unseen seen).filter (· ∉ more) := by
  rw [unseen, unseen, List.filter_filter]
  refine List.filter_congr fun member _ => ?_
  by_cases old : member ∈ seen <;> simp [old]

/-- A member that is seen now takes itself and its own steps off what is ahead. -/
theorem length_ahead {seen : List α} {source : α} (known : source ∈ steps.members) (fresh : source ∉ seen) :
    (steps.ahead seen).length = (steps.next source).length + 1 + (steps.ahead (seen ++ [source])).length := by
  have once : (steps.unseen seen).Nodup := steps.unique.sublist List.filter_sublist
  have listed : source ∈ steps.unseen seen := by simpa [unseen, fresh] using known
  have left : (steps.unseen seen).erase source = steps.unseen (seen ++ [source]) := by
    rw [once.erase_eq_filter, unseen_append]
    refine List.filter_congr fun other _ => ?_
    by_cases same : other = source <;> simp [same]
  have all := ((List.perm_cons_erase listed).flatMap_right fun source => source :: steps.next source).length_eq
  rwa [List.flatMap_cons, List.length_append, List.length_cons, left] at all

theorem length_ahead_le {seen more : List α} (wider : seen ⊆ more) :
    (steps.ahead more).length ≤ (steps.ahead seen).length := by
  have same : steps.unseen more = steps.unseen (seen ++ more) := by
    refine List.filter_congr fun member _ => ?_
    by_cases found : member ∈ seen
    · simp [wider found]
    · simp [found]
  rw [ahead, same, unseen_append]
  exact length_flatMap_filter_le _ _ _

end Steps

/-- Takes one member after another off a stack. What is admitted and not seen yet is
added, and what it leads to goes on top; all else is dropped. -/
def descend (steps : Steps α) (admits : α → Bool) (seen : List α) : List α → List α
  | [] => seen
  | current :: rest =>
    if current ∈ seen || !admits current then descend steps admits seen rest
    else descend steps admits (seen ++ [current]) (steps.stacked current ++ rest)
termination_by stack => (steps.ahead seen).length + stack.length
decreasing_by
  · simp
  · rename_i passed
    have fresh : current ∉ seen := by
      intro member
      simp [member] at passed
    simp only [List.length_append, Steps.stacked, List.length_reverse, List.length_cons]
    by_cases known : current ∈ steps.members
    · have fewer := steps.length_ahead known fresh
      omega
    · have fewer := steps.length_ahead_le (List.subset_append_left seen [current])
      rw [steps.outside current known, List.length_nil]
      omega

/-- What a level leads to and nothing before has, in the order in which it is met. -/
def arrivals (next : α → List α) (reached frontier : List α) : List α :=
  distinct ((frontier.flatMap next).filter (· ∉ reached))

theorem mem_arrivals {next : α → List α} {reached frontier : List α} {member : α} :
    member ∈ arrivals next reached frontier ↔
      member ∉ reached ∧ ∃ source ∈ frontier, member ∈ next source := by
  simp [arrivals, and_comm]

theorem length_filter_notMem {unseen found : List α} (once : found.Nodup) (among : found ⊆ unseen) :
    found.length + (unseen.filter (· ∉ found)).length ≤ unseen.length := by
  induction found with
  | nil =>
    rw [List.length_nil, Nat.zero_add]
    exact List.length_filter_le _ _
  | cons first rest ih =>
    obtain ⟨fresh, once⟩ := List.nodup_cons.1 once
    have before := ih once fun member later => among (List.mem_cons_of_mem _ later)
    have narrower : (unseen.filter (· ∉ first :: rest)) = (unseen.filter (· ∉ rest)).filter (· ≠ first) := by
      rw [List.filter_filter]
      refine List.filter_congr fun member _ => ?_
      by_cases same : member = first <;> simp [same]
    have fewer : ((unseen.filter (· ∉ rest)).filter (· ≠ first)).length < (unseen.filter (· ∉ rest)).length := by
      refine List.length_filter_lt_length_iff_exists.2 ⟨first, ?_, by simp⟩
      exact List.mem_filter.2 ⟨among List.mem_cons_self, by simpa using fresh⟩
    rw [narrower, List.length_cons]
    omega

/-- Arrivals are members that were not reached before. -/
theorem length_arrivals (steps : Steps α) (reached frontier : List α) :
    let found := arrivals steps.next reached frontier
    found.length + (steps.unseen (reached ++ found)).length ≤ (steps.unseen reached).length := by
  intro found
  have among : found ⊆ steps.unseen reached := by
    intro member arrived
    obtain ⟨fresh, source, _, edge⟩ := mem_arrivals.1 arrived
    exact List.mem_filter.2 ⟨steps.inside source member edge, by simpa using fresh⟩
  rw [steps.unseen_append]
  exact length_filter_notMem (nodup_distinct _) among

/-- Goes on from level to level while there are arrivals and the step is allowed. -/
def climb (steps : Steps α) (allowed : Nat → Bool) (level : Nat) (reached frontier : List α) : List α :=
  if frontier.isEmpty || !allowed level then reached
  else
    let found := arrivals steps.next reached frontier
    climb steps allowed (level + 1) (reached ++ found) found
termination_by (steps.unseen reached).length + frontier.length
decreasing_by
  rename_i goes
  have fewer := length_arrivals steps reached frontier
  have some : 0 < frontier.length := by
    refine List.length_pos_iff.2 fun none => ?_
    simp [none] at goes
  omega

end BuildPipeline.Reach
