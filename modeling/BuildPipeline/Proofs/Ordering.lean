import BuildPipeline.Plan.Jobs
import Mathlib.Data.List.Perm.Basic

/-! The orders that listings are sorted by. Each compares one key after another,
so a sorted listing is determined by its members as soon as the keys are. -/

namespace BuildPipeline

variable {α β : Type _}

/-- Any two members are comparable, and comparisons chain. -/
structure Ordered (le : α → α → Bool) : Prop where
  total : ∀ a b, le a b = true ∨ le b a = true
  trans : ∀ a b c, le a b = true → le b c = true → le a c = true

def Antisymmetric (le : α → α → Bool) : Prop :=
  ∀ a b, le a b = true → le b a = true → a = b

namespace Ordered

theorem sorted {le : α → α → Bool} (order : Ordered le) (items : List α) :
    (sortBy le items).Pairwise (le · · = true) :=
  sortBy_pairwise order.total order.trans items

theorem onKey {le : β → β → Bool} (order : Ordered le) (key : α → β) :
    Ordered fun left right => le (key left) (key right) :=
  ⟨fun a b => order.total (key a) (key b), fun a b c => order.trans (key a) (key b) (key c)⟩

/-- One key decides, and where it ties another order does. -/
theorem lexicographic [DecidableEq β] {first : β → β → Bool} {second : α → α → Bool}
    (major : Ordered first) (strict : Antisymmetric first) (minor : Ordered second) (key : α → β) :
    Ordered fun left right =>
      if key left = key right then second left right else first (key left) (key right) := by
  constructor
  · intro a b
    by_cases same : key a = key b
    · simpa [same] using minor.total a b
    · simpa [same, Ne.symm same] using major.total (key a) (key b)
  · intro a b c ab bc
    by_cases left : key a = key b <;> by_cases right : key b = key c
    · simp only [left, right, if_true] at ab bc ⊢
      exact minor.trans a b c ab bc
    · simp only [left, right, if_true, if_false] at ab bc ⊢
      exact bc
    · have apart : key a ≠ key c := fun same => left (same.trans right.symm)
      simp only [apart, left, if_false] at ab ⊢
      rwa [← right]
    · simp only [left, right, if_false] at ab bc
      have across := major.trans _ _ _ ab bc
      by_cases same : key a = key c
      · rw [same] at ab
        exact absurd (strict _ _ bc ab) right
      · simpa only [same, if_false] using across

end Ordered

/-- Members that precede each other have one key and precede each other below it. -/
theorem ties_of_lexicographic [DecidableEq β] {first : β → β → Bool} (strict : Antisymmetric first)
    (second : α → α → Bool) (key : α → β) {a b : α}
    (forward : (if key a = key b then second a b else first (key a) (key b)) = true)
    (backward : (if key b = key a then second b a else first (key b) (key a)) = true) :
    second a b = true ∧ second b a = true := by
  by_cases same : key a = key b
  · exact ⟨by simpa [same] using forward, by simpa [same] using backward⟩
  · simp only [same, Ne.symm same, if_false] at forward backward
    exact absurd (strict _ _ forward backward) same

theorem eq_of_perm_of_sorted {le : α → α → Bool} {left right : List α}
    (strict : ∀ a ∈ left, ∀ b ∈ left, le a b = true → le b a = true → a = b)
    (same : left.Perm right) (sortedLeft : left.Pairwise (le · · = true))
    (sortedRight : right.Pairwise (le · · = true)) : left = right :=
  same.eq_of_pairwise
    (fun a b first second forward backward =>
      strict a first b (same.mem_iff.2 second) forward backward)
    sortedLeft sortedRight

theorem sortBy_eq_of_perm {le : α → α → Bool} (order : Ordered le) {left right : List α}
    (strict : ∀ a ∈ left, ∀ b ∈ left, le a b = true → le b a = true → a = b)
    (same : left.Perm right) : sortBy le left = sortBy le right := by
  apply eq_of_perm_of_sorted _ _ (order.sorted left) (order.sorted right)
  · intro a first b second
    exact strict a (mem_sortBy.1 first) b (mem_sortBy.1 second)
  · exact ((sortBy_perm le left).trans same).trans (sortBy_perm le right).symm

theorem forall₂_insertBy {related : α → β → Prop} {le : α → α → Bool} {other : β → β → Bool}
    (same : ∀ a b c d, related a b → related c d → le a c = other b d) {item : α} {twin : β}
    (first : related item twin) {items : List α} {twins : List β} (rest : List.Forall₂ related items twins) :
    List.Forall₂ related (insertBy le item items) (insertBy other twin twins) := by
  induction rest with
  | nil => exact .cons first .nil
  | cons head tail ih =>
    rw [insertBy, insertBy, same _ _ _ _ first head]
    split
    · exact .cons first (.cons head tail)
    · exact .cons head ih

/-- Sorting keeps together what was matched up, when both orders compare alike. -/
theorem forall₂_sortBy {related : α → β → Prop} {le : α → α → Bool} {other : β → β → Bool}
    (same : ∀ a b c d, related a b → related c d → le a c = other b d) {items : List α} {twins : List β}
    (matched : List.Forall₂ related items twins) :
    List.Forall₂ related (sortBy le items) (sortBy other twins) := by
  induction matched with
  | nil => exact .nil
  | cons head _ ih => exact forall₂_insertBy same head ih

theorem sortBy_map {le : α → α → Bool} {other : β → β → Bool} (change : α → β)
    (same : ∀ a b, le a b = other (change a) (change b)) (items : List α) :
    sortBy other (items.map change) = (sortBy le items).map change := by
  have matched : List.Forall₂ (fun item twin => change item = twin) items (items.map change) := by
    simp [List.forall₂_map_right_iff, List.forall₂_same]
  have compare : ∀ a b c d, change a = b → change c = d → le a c = other b d := by
    rintro a _ c _ rfl rfl
    exact same a c
  have sorted := List.forall₂_map_left_iff.2 (forall₂_sortBy compare matched)
  exact (List.forall₂_eq_eq_eq ▸ sorted).symm

theorem insertBy_of_forall_le {le : α → α → Bool} {item : α} {items : List α}
    (least : ∀ other ∈ items, le item other = true) : insertBy le item items = item :: items := by
  cases items with
  | nil => rfl
  | cons first rest => rw [insertBy, if_pos (least first List.mem_cons_self)]

theorem sortBy_of_sorted {le : α → α → Bool} {items : List α} (sorted : items.Pairwise (le · · = true)) :
    sortBy le items = items := by
  induction sorted with
  | nil => rfl
  | cons least _ ih => rw [sortBy, ih, insertBy_of_forall_le least]

theorem insertBy_congr {le other : α → α → Bool} {item : α} {items : List α}
    (same : ∀ member ∈ items, le item member = other item member) :
    insertBy le item items = insertBy other item items := by
  induction items with
  | nil => rfl
  | cons first rest ih =>
    rw [insertBy, insertBy, same first List.mem_cons_self, ih fun member later => same member (.tail _ later)]

/-- A member is compared only with those behind it. -/
theorem sortBy_congr {le other : α → α → Bool} {items : List α}
    (same : items.Pairwise fun earlier later => le earlier later = other earlier later) :
    sortBy le items = sortBy other items := by
  induction same with
  | nil => rfl
  | cons first _ ih =>
    rw [sortBy, sortBy, ih]
    exact insertBy_congr fun member listed => first member (mem_sortBy.1 listed)

theorem filter_insertBy {le : α → α → Bool} (order : Ordered le) (keep : α → Bool) (item : α) {items : List α}
    (sorted : items.Pairwise (le · · = true)) :
    (insertBy le item items).filter keep =
      if keep item then insertBy le item (items.filter keep) else items.filter keep := by
  induction sorted with
  | nil => by_cases kept : keep item = true <;> simp [insertBy, kept]
  | @cons first rest least sorted ih =>
    by_cases before : le item first = true
    · have above : ∀ other ∈ (first :: rest).filter keep, le item other = true := by
        intro other member
        rcases List.mem_cons.1 (List.mem_of_mem_filter member) with rfl | later
        · exact before
        · exact order.trans _ _ _ before (least other later)
      rw [insertBy, if_pos before, List.filter_cons, insertBy_of_forall_le above]
    · rw [insertBy, if_neg before, List.filter_cons, List.filter_cons, ih]
      by_cases also : keep first = true
      · rw [if_pos also, if_pos also, insertBy, if_neg before, apply_ite (List.cons first)]
      · rw [if_neg also, if_neg also]

theorem filter_sortBy {le : α → α → Bool} (order : Ordered le) (keep : α → Bool) (items : List α) :
    (sortBy le items).filter keep = sortBy le (items.filter keep) := by
  induction items with
  | nil => rfl
  | cons first rest ih =>
    rw [sortBy, filter_insertBy order keep first (order.sorted rest), ih, List.filter_cons]
    split
    · rfl
    · rfl

theorem perm_of_mem_iff {left right : List α} (unique : left.Nodup) (distinct : right.Nodup)
    (same : ∀ item, item ∈ left ↔ item ∈ right) : left.Perm right :=
  (List.perm_ext_iff_of_nodup unique distinct).2 same

theorem length_erase_lt [BEq α] [LawfulBEq α] {items : List α} {item : α} (member : item ∈ items) :
    (items.erase item).length < items.length := by
  have positive := List.length_pos_of_mem member
  rw [List.length_erase_of_mem member]
  omega

theorem textLe_total (left right : Text) : textLe left right = true ∨ textLe right left = true := by
  induction left generalizing right with
  | nil => exact .inl rfl
  | cons first rest ih =>
    cases right with
    | nil => exact .inr rfl
    | cons other others =>
      simp only [textLe, Bool.or_eq_true, Bool.and_eq_true, decide_eq_true_eq, beq_iff_eq]
      by_cases same : first = other
      · have tails := ih others
        simpa [same] using tails
      · rcases UInt16.lt_or_lt_of_ne same with below | above
        · exact .inl (.inl below)
        · exact .inr (.inl above)

theorem textLe_trans (left middle right : Text) (first : textLe left middle = true)
    (second : textLe middle right = true) : textLe left right = true := by
  induction left generalizing middle right with
  | nil => rfl
  | cons a as ih =>
    cases middle with
    | nil => cases first
    | cons b bs =>
      cases right with
      | nil => cases second
      | cons c cs =>
        simp only [textLe, Bool.or_eq_true, Bool.and_eq_true, decide_eq_true_eq, beq_iff_eq] at first second ⊢
        rcases first with below | ⟨rfl, tails⟩
        · rcases second with above | ⟨rfl, _⟩
          · exact .inl (UInt16.lt_trans below above)
          · exact .inl below
        · rcases second with above | ⟨rfl, others⟩
          · exact .inl above
          · exact .inr ⟨rfl, ih bs cs tails others⟩

theorem textLe_antisymm : Antisymmetric textLe := by
  intro left
  induction left with
  | nil =>
    intro right _ backward
    cases right with
    | nil => rfl
    | cons => cases backward
  | cons a as ih =>
    intro right forward backward
    cases right with
    | nil => cases forward
    | cons b bs =>
      simp only [textLe, Bool.or_eq_true, Bool.and_eq_true, decide_eq_true_eq, beq_iff_eq] at forward backward
      rcases forward with below | ⟨rfl, tails⟩
      · rcases backward with above | ⟨same, _⟩
        · exact absurd below (UInt16.lt_asymm above)
        · exact absurd same.symm (UInt16.ne_of_lt below)
      · rcases backward with above | ⟨_, others⟩
        · exact absurd above (UInt16.lt_irrefl _)
        · rw [ih bs tails others]

theorem textLe_ordered : Ordered textLe :=
  ⟨textLe_total, textLe_trans⟩

theorem natLe_ordered : Ordered fun left right : Nat => decide (left ≤ right) := by
  constructor
  · intro a b
    simpa using Nat.le_total a b
  · intro a b c
    simpa using Nat.le_trans

theorem SpecNode.le_ordered : Ordered SpecNode.le :=
  textLe_ordered.lexicographic textLe_antisymm (textLe_ordered.onKey SpecNode.hash) SpecNode.name

theorem SpecNode.hash_eq_of_le {left right : SpecNode} (forward : left.le right = true)
    (backward : right.le left = true) : left.hash = right.hash := by
  have ties := ties_of_lexicographic textLe_antisymm (fun left right : SpecNode => textLe left.hash right.hash)
    SpecNode.name forward backward
  exact textLe_antisymm _ _ ties.1 ties.2

/-- The name a node is sorted by; an unknown fingerprint has an empty one. -/
def PipelineGraph.nameOf (graph : PipelineGraph) (hash : Text) : Text :=
  ((graph.get? hash).map SpecNode.name).getD ""

theorem PipelineGraph.hashLe_ordered (graph : PipelineGraph) : Ordered graph.hashLe :=
  textLe_ordered.lexicographic textLe_antisymm textLe_ordered graph.nameOf

theorem PipelineGraph.hashLe_antisymm (graph : PipelineGraph) : Antisymmetric graph.hashLe := by
  intro left right forward backward
  have ties := ties_of_lexicographic textLe_antisymm textLe graph.nameOf forward backward
  exact textLe_antisymm _ _ ties.1 ties.2

theorem dependencySet_eq_iff {left right : List Text} :
    dependencySet left = dependencySet right ↔ ∀ hash, hash ∈ left ↔ hash ∈ right := by
  constructor
  · intro same hash
    have listed : hash ∈ dependencySet left ↔ hash ∈ dependencySet right := by rw [same]
    simpa [dependencySet, sortTexts] using listed
  · intro same
    apply sortBy_eq_of_perm textLe_ordered fun a _ b _ => textLe_antisymm a b
    exact perm_of_mem_iff (nodup_distinct left) (nodup_distinct right) (by simpa using same)

/-- Two images make one set when each member of either has a partner in the other. -/
theorem dependencySet_map_eq_iff {left right : List α} {hash : α → Text} :
    dependencySet (left.map hash) = dependencySet (right.map hash) ↔
      (∀ first ∈ left, ∃ second ∈ right, hash first = hash second) ∧
        ∀ second ∈ right, ∃ first ∈ left, hash first = hash second := by
  rw [dependencySet_eq_iff]
  simp only [List.mem_map]
  constructor
  · intro same
    constructor
    · intro first listed
      obtain ⟨second, member, equal⟩ := (same _).1 ⟨first, listed, rfl⟩
      exact ⟨second, member, equal.symm⟩
    · intro second listed
      exact (same _).2 ⟨second, listed, rfl⟩
  · rintro ⟨forward, backward⟩ text
    constructor
    · rintro ⟨first, listed, rfl⟩
      obtain ⟨second, member, equal⟩ := forward first listed
      exact ⟨second, member, equal.symm⟩
    · rintro ⟨second, listed, rfl⟩
      exact backward second listed

end BuildPipeline
