import BuildPipeline.Proofs.Acyclicity

/-! What a stack of members leads down to. A member may be put on the stack many times,
but it is seen once, and what is seen leads on to nothing that is neither seen nor
stacked. -/

namespace BuildPipeline
open Relation

namespace Reach

variable {α : Type _} {steps : Steps α} {admits : α → Bool} {seen stack rest : List α} {current member : α}

theorem mem_stacked {source : α} : member ∈ steps.stacked source ↔ member ∈ steps.next source :=
  List.mem_reverse

/-- The ends of all steps are admitted, and what is seen is too. Nothing is seen twice, and
all that it leads to is seen as well or still to be looked at. -/
structure Walking (steps : Steps α) (admits : α → Bool) (seen stack : List α) : Prop where
  ends : ∀ source, ∀ member ∈ steps.next source, admits member = true
  admitted : ∀ source ∈ seen, admits source = true
  once : seen.Nodup
  onward : ∀ source ∈ seen, ∀ member ∈ steps.next source, member ∈ seen ∨ member ∈ stack

/-- Nothing is lost with what is seen already or is not admitted. -/
theorem Walking.drop (walking : Walking steps admits seen (current :: rest))
    (passed : admits current = true → current ∈ seen) : Walking steps admits seen rest := by
  refine { walking with onward := ?_ }
  intro source found member edge
  rcases walking.onward source found member edge with before | stacked
  · exact .inl before
  · rcases List.mem_cons.1 stacked with rfl | later
    · exact .inl (passed (walking.ends source member edge))
    · exact .inr later

theorem Walking.take (walking : Walking steps admits seen (current :: rest)) (admitted : admits current = true)
    (fresh : current ∉ seen) : Walking steps admits (seen ++ [current]) (steps.stacked current ++ rest) := by
  constructor
  case ends => exact walking.ends
  case admitted =>
    intro source member
    rcases List.mem_append.1 member with before | last
    · exact walking.admitted source before
    · rwa [List.mem_singleton.1 last]
  case once =>
    refine List.nodup_append.2 ⟨walking.once, List.nodup_singleton _, fun member before other last => ?_⟩
    rw [List.mem_singleton.1 last]
    rintro rfl
    exact fresh before
  case onward =>
    intro source found member edge
    rcases List.mem_append.1 found with before | last
    · rcases walking.onward source before member edge with seen | stacked
      · exact .inl (List.mem_append_left _ seen)
      · rcases List.mem_cons.1 stacked with rfl | later
        · exact .inl (List.mem_append_right _ List.mem_cons_self)
        · exact .inr (List.mem_append_right _ later)
    · rw [List.mem_singleton.1 last] at edge
      exact .inr (List.mem_append_left _ (mem_stacked.2 edge))

variable [DecidableEq α]

/-- At the end of a walk nothing is left to be looked at, and nothing on the stack was missed. -/
theorem Walking.descend (walking : Walking steps admits seen stack) :
    Walking steps admits (Reach.descend steps admits seen stack) [] ∧ seen ⊆ Reach.descend steps admits seen stack ∧
      ∀ member ∈ stack, admits member = true → member ∈ Reach.descend steps admits seen stack := by
  fun_induction Reach.descend steps admits seen stack with
  | case1 seen => exact ⟨walking, List.Subset.refl _, by simp⟩
  | case2 seen current rest passed ih =>
    have old : admits current = true → current ∈ seen := by simpa [imp_iff_or_not] using passed
    obtain ⟨done, kept, visited⟩ := ih (walking.drop old)
    refine ⟨done, kept, fun member stacked admitted => ?_⟩
    rcases List.mem_cons.1 stacked with rfl | later
    · exact kept (old admitted)
    · exact visited member later admitted
  | case3 seen current rest fresh ih =>
    obtain ⟨new, admitted⟩ : current ∉ seen ∧ admits current = true := by simpa using fresh
    obtain ⟨done, kept, visited⟩ := ih (walking.take admitted new)
    obtain ⟨before, last⟩ := List.append_subset.1 kept
    refine ⟨done, before, fun member stacked admitted => ?_⟩
    rcases List.mem_cons.1 stacked with rfl | later
    · exact last List.mem_cons_self
    · exact visited member (List.mem_append_right _ later) admitted

/-- A walk comes only to what the admitted members of its stack lead to. -/
theorem exists_path_of_mem_descend (found : member ∈ Reach.descend steps admits seen stack) :
    member ∈ seen ∨ ∃ start ∈ stack, admits start = true ∧
      ReflTransGen (fun source member => member ∈ steps.next source) start member := by
  fun_induction Reach.descend steps admits seen stack with
  | case1 seen => exact .inl found
  | case2 seen current rest passed ih =>
    refine (ih found).imp_right ?_
    rintro ⟨start, later, path⟩
    exact ⟨start, .tail _ later, path⟩
  | case3 seen current rest fresh ih =>
    obtain ⟨_, admitted⟩ : current ∉ seen ∧ admits current = true := by simpa using fresh
    rcases ih found with before | ⟨start, stacked, allowed, path⟩
    · rcases List.mem_append.1 before with old | last
      · exact .inl old
      · obtain rfl := List.mem_singleton.1 last
        exact .inr ⟨member, List.mem_cons_self, admitted, .refl⟩
    · rcases List.mem_append.1 stacked with below | later
      · exact .inr ⟨current, List.mem_cons_self, admitted, .head (mem_stacked.1 below) path⟩
      · exact .inr ⟨start, .tail _ later, allowed, path⟩

section Whole

variable (ends : ∀ source, ∀ member ∈ steps.next source, admits member = true)
include ends

theorem walking_descend (stack : List α) : Walking steps admits (Reach.descend steps admits [] stack) [] ∧
    ∀ member ∈ stack, admits member = true → member ∈ Reach.descend steps admits [] stack := by
  have start : Walking steps admits [] stack := ⟨ends, by simp, .nil, by simp⟩
  obtain ⟨done, _, visited⟩ := start.descend
  exact ⟨done, visited⟩

theorem nodup_descend (stack : List α) : (Reach.descend steps admits [] stack).Nodup :=
  (walking_descend ends stack).1.once

/-- A walk comes to all that the admitted members of its stack lead to, and to nothing else. -/
theorem mem_descend : member ∈ Reach.descend steps admits [] stack ↔ ∃ start ∈ stack, admits start = true ∧
    ReflTransGen (fun source member => member ∈ steps.next source) start member := by
  refine ⟨fun found => (exists_path_of_mem_descend found).resolve_left List.not_mem_nil, ?_⟩
  rintro ⟨start, stacked, admitted, path⟩
  obtain ⟨done, visited⟩ := walking_descend ends stack
  induction path with
  | refl => exact visited start stacked admitted
  | tail _ edge ih => exact (done.onward _ ih _ edge).resolve_right List.not_mem_nil

end Whole

end Reach

namespace PipelineGraph

variable {graph : PipelineGraph} {start hash : Text}

theorem contains_of_mem_downward (graph : PipelineGraph) (source : Text) :
    ∀ member ∈ graph.downward.next source, graph.contains member = true :=
  fun member edge => graph.contains_iff.2 (graph.downward.inside source member edge)

theorem mem_closure : hash ∈ graph.closure start ↔ start ∈ graph.hashes ∧ ReflTransGen graph.DependsOn start hash := by
  rw [closure, Reach.mem_descend graph.contains_of_mem_downward]
  simp only [List.mem_singleton, exists_eq_left, contains_iff]
  rfl

theorem nodup_closure (graph : PipelineGraph) (hash : Text) : (graph.closure hash).Nodup :=
  Reach.nodup_descend graph.contains_of_mem_downward [hash]

end PipelineGraph

end BuildPipeline
