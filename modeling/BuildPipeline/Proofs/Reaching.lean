import BuildPipeline.Graph.Reach
import Mathlib.Data.List.Nodup
import Mathlib.Data.List.Perm.Basic
import Mathlib.Logic.Relation
import Mathlib.Order.Lattice.Nat

/-! What a search level by level arrives at. Levels are left behind once all that
they lead to is reached, so the search finds just what its steps lead to. -/

namespace BuildPipeline.Reach
open Relation

variable {α : Type _} {next : α → List α}

/-- A path of so many steps. -/
inductive Way (next : α → List α) : Nat → α → α → Prop
  | here {start : α} : Way next 0 start start
  | step {start middle last : α} {length : Nat} (way : Way next length start middle)
      (edge : last ∈ next middle) : Way next (length + 1) start last

theorem Way.head {start second last : α} {length : Nat} (edge : second ∈ next start)
    (way : Way next length second last) : Way next (length + 1) start last := by
  induction way with
  | here => exact .step .here edge
  | step _ further ih => exact .step (ih edge) further

theorem Way.exists_head {start last : α} {length : Nat} (way : Way next (length + 1) start last) :
    ∃ second ∈ next start, Way next length second last := by
  induction length generalizing last with
  | zero =>
    obtain _ | ⟨front, edge⟩ := way
    obtain _ | _ := front
    exact ⟨last, edge, .here⟩
  | succ length ih =>
    obtain _ | ⟨front, edge⟩ := way
    obtain ⟨second, first, rest⟩ := ih front
    exact ⟨second, first, rest.step edge⟩

/-- A way along turned edges, walked back. -/
theorem Way.reverse {previous : α → List α} (turned : ∀ source member, member ∈ next source → source ∈ previous member)
    {start last : α} {length : Nat} (way : Way next length start last) : Way previous length last start := by
  induction way with
  | here => exact .here
  | step _ edge ih => exact ih.head (turned _ _ edge)

theorem exists_way_iff {start last : α} :
    (∃ length, Way next length start last) ↔ ReflTransGen (fun source member => member ∈ next source) start last := by
  constructor
  · rintro ⟨length, way⟩
    induction way with
    | here => exact .refl
    | step _ edge ih => exact ih.tail edge
  · intro path
    induction path with
    | refl => exact ⟨0, .here⟩
    | tail _ edge ih =>
      obtain ⟨length, way⟩ := ih
      exact ⟨length + 1, way.step edge⟩

/-- The length of a shortest way. -/
def Nearest (next : α → List α) (start last : α) (length : Nat) : Prop :=
  IsLeast {steps | Way next steps start last} length

theorem Way.exists_nearest {start last : α} {length : Nat} (way : Way next length start last) :
    ∃ least ≤ length, Nearest next start last least := by
  have ways : {steps | Way next steps start last}.Nonempty := ⟨length, way⟩
  exact ⟨_, Nat.sInf_le way, Nat.sInf_mem ways, fun steps other => Nat.sInf_le other⟩

/-- What is left of a shortest way after its first step is shortest too. -/
theorem Nearest.exists_head {start last : α} {length : Nat} (nearest : Nearest next start last (length + 1)) :
    ∃ second ∈ next start, Nearest next second last length := by
  obtain ⟨second, edge, rest⟩ := Way.exists_head nearest.1
  refine ⟨second, edge, rest, fun steps other => ?_⟩
  exact Nat.le_of_succ_le_succ (nearest.2 (other.head edge))

/-- A shortest way has a place of its own at every distance. -/
theorem Nearest.exists_place {members : List α} (inside : ∀ source member, member ∈ next source → member ∈ members)
    {start last : α} {length : Nat} (listed : start ∈ members) (nearest : Nearest next start last length) :
    ∀ distance ≤ length, ∃ place ∈ members, Nearest next place last distance := by
  induction length generalizing start with
  | zero =>
    intro distance none
    obtain rfl := Nat.le_zero.1 none
    exact ⟨start, listed, nearest⟩
  | succ length ih =>
    intro distance within
    rcases Nat.le_succ_iff.1 within with earlier | rfl
    · obtain ⟨second, edge, rest⟩ := nearest.exists_head
      exact ih (inside _ _ edge) rest distance earlier
    · exact ⟨start, listed, nearest⟩

/-- So a shortest way has fewer steps than there are members. -/
theorem Nearest.lt_length {members : List α} (inside : ∀ source member, member ∈ next source → member ∈ members)
    {start last : α} {length : Nat} (listed : start ∈ members) (nearest : Nearest next start last length) :
    length < members.length := by
  have : Nonempty α := ⟨start⟩
  choose! place known distance using nearest.exists_place inside listed
  have apart : ((List.range (length + 1)).map place).Nodup := by
    refine List.Nodup.map_on ?_ List.nodup_range
    intro first within second also same
    rw [List.mem_range, Nat.lt_succ_iff] at within also
    have one := distance first within
    rw [same] at one
    exact one.unique (distance second also)
  have among : (List.range (length + 1)).map place ⊆ members := by
    intro member visited
    obtain ⟨step, within, rfl⟩ := List.mem_map.1 visited
    exact known step (Nat.lt_succ_iff.1 (List.mem_range.1 within))
  have counted := (List.subperm_of_subset apart among).length_le
  rw [List.length_map, List.length_range] at counted
  exact counted

variable [DecidableEq α] {reached frontier : List α}

/-- What is reached leads on to something new only from the frontier. -/
structure Border (next : α → List α) (reached frontier : List α) : Prop where
  seen : frontier ⊆ reached
  left : ∀ source ∈ reached, source ∉ frontier → ∀ member ∈ next source, member ∈ reached

namespace Border

theorem advance (border : Border next reached frontier) :
    Border next (reached ++ arrivals next reached frontier) (arrivals next reached frontier) where
  seen := List.subset_append_right _ _
  left := by
    intro source found apart member edge
    have old : source ∈ reached := (List.mem_append.1 found).resolve_right apart
    by_cases known : member ∈ reached
    · exact List.mem_append_left _ known
    · have front : source ∈ frontier := by
        by_contra behind
        exact known (border.left source old behind member edge)
      exact List.mem_append_right _ (mem_arrivals.2 ⟨known, source, front, edge⟩)

/-- A way out of what is reached passes an arrival after one step or more. -/
theorem exists_arrival (border : Border next reached frontier) {source member : α} {length : Nat}
    (front : source ∈ frontier) (way : Way next length source member) (remains : member ∉ reached) :
    ∃ arrival ∈ arrivals next reached frontier, ∃ rest < length, Way next rest arrival member := by
  have passed : member ∈ reached ∨
      ∃ arrival ∈ arrivals next reached frontier, ∃ rest < length, Way next rest arrival member := by
    clear remains
    induction way with
    | here => exact .inl (border.seen front)
    | @step _ middle last length _ edge ih =>
      rcases ih front with known | ⟨arrival, arrived, rest, fewer, way⟩
      · by_cases fresh : last ∈ reached
        · exact .inl fresh
        · have edged : middle ∈ frontier := by
            by_contra apart
            exact fresh (border.left middle known apart last edge)
          exact .inr ⟨last, mem_arrivals.2 ⟨fresh, middle, edged, edge⟩, 0, Nat.succ_pos _, .here⟩
      · exact .inr ⟨arrival, arrived, rest + 1, Nat.succ_lt_succ fewer, way.step edge⟩
  exact passed.resolve_left remains

end Border

/-- The search adds the ends of ways whose steps are allowed. -/
theorem mem_climb_of_border {steps : Steps α} (allowed : Nat → Bool) (level : Nat)
    (border : Border steps.next reached frontier) (member : α) :
    member ∈ climb steps allowed level reached frontier ↔ member ∈ reached ∨
      ∃ source ∈ frontier, ∃ length, Way steps.next length source member ∧ ∀ step < length, allowed (level + step) := by
  fun_induction climb steps allowed level reached frontier with
  | case1 level reached frontier stopped =>
    simp only [Bool.or_eq_true, List.isEmpty_iff, Bool.not_eq_true', Bool.eq_false_iff] at stopped
    refine ⟨.inl, fun found => ?_⟩
    by_contra remains
    obtain ⟨source, front, length, way, may⟩ := found.resolve_left remains
    obtain ⟨_, _, rest, fewer, _⟩ := border.exists_arrival front way remains
    rcases stopped with none | forbidden
    · rw [none] at front
      cases front
    · exact forbidden (may 0 (by omega))
  | case2 level reached frontier goes found ih =>
    have permitted : allowed level = true := by
      by_contra forbidden
      exact goes (by simp [forbidden])
    rw [ih border.advance, List.mem_append, or_assoc]
    refine or_congr_right' fun remains => ?_
    constructor
    · rintro (arrival | ⟨first, arrival, length, way, may⟩)
      · obtain ⟨_, source, front, edge⟩ := mem_arrivals.1 arrival
        refine ⟨source, front, 1, .step .here edge, fun step below => ?_⟩
        rwa [Nat.lt_one_iff.1 below, Nat.add_zero]
      · obtain ⟨_, source, front, edge⟩ := mem_arrivals.1 arrival
        refine ⟨source, front, length + 1, way.head edge, fun step below => ?_⟩
        cases step with
        | zero => exact permitted
        | succ step =>
          rw [← Nat.add_assoc, Nat.add_right_comm]
          exact may step (Nat.lt_of_succ_lt_succ below)
    · rintro ⟨source, front, length, way, may⟩
      obtain ⟨first, arrived, rest, fewer, way⟩ := border.exists_arrival front way remains
      refine .inr ⟨first, arrived, rest, way, fun step below => ?_⟩
      rw [Nat.add_assoc, Nat.add_comm 1 step]
      exact may (step + 1) (by omega)

/-- A level search from some starts finds the ends of the ways that it may go. -/
theorem mem_climb {steps : Steps α} {start : List α} (allowed : Nat → Bool) {member : α} :
    member ∈ climb steps allowed 0 start start ↔
      ∃ source ∈ start, ∃ length, Way steps.next length source member ∧ ∀ step < length, allowed step := by
  have border : Border steps.next start start := ⟨List.Subset.refl _, fun _ found apart => absurd found apart⟩
  rw [mem_climb_of_border allowed 0 border]
  simp only [Nat.zero_add, or_iff_right_iff_imp]
  exact fun first => ⟨member, first, 0, .here, by simp⟩

end BuildPipeline.Reach
