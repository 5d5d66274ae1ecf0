/-! Stable sorting and removal of repeats. Both recurse on the list itself, so
closed instances evaluate. -/

namespace BuildPipeline

variable {α : Type _}

/-- Puts `item` before the first member that it may precede. -/
def insertBy (le : α → α → Bool) (item : α) : List α → List α
  | [] => [item]
  | first :: rest => if le item first then item :: first :: rest else first :: insertBy le item rest

/-- Members that may precede each other keep the order they came in. -/
def sortBy (le : α → α → Bool) : List α → List α
  | [] => []
  | first :: rest => insertBy le first (sortBy le rest)

/-- Keeps the first of equal members. -/
def distinct [DecidableEq α] : List α → List α
  | [] => []
  | first :: rest => first :: (distinct rest).filter (· ≠ first)

theorem insertBy_perm (le : α → α → Bool) (item : α) (items : List α) :
    (insertBy le item items).Perm (item :: items) := by
  induction items with
  | nil => exact .refl _
  | cons first rest ih =>
    unfold insertBy
    split
    · exact .refl _
    · exact (ih.cons first).trans (.swap item first rest)

theorem sortBy_perm (le : α → α → Bool) (items : List α) : (sortBy le items).Perm items := by
  induction items with
  | nil => exact .refl _
  | cons first rest ih => exact (insertBy_perm le first _).trans (ih.cons first)

@[simp] theorem mem_sortBy {le : α → α → Bool} {items : List α} {item : α} :
    item ∈ sortBy le items ↔ item ∈ items :=
  (sortBy_perm le items).mem_iff

theorem insertBy_pairwise {le : α → α → Bool} (total : ∀ a b, le a b = true ∨ le b a = true)
    (trans : ∀ a b c, le a b = true → le b c = true → le a c = true) (item : α) (items : List α)
    (sorted : items.Pairwise (le · · = true)) : (insertBy le item items).Pairwise (le · · = true) := by
  induction items with
  | nil => simp [insertBy]
  | cons first rest ih =>
    obtain ⟨least, tail⟩ := List.pairwise_cons.1 sorted
    unfold insertBy
    split
    next before =>
      refine List.pairwise_cons.2 ⟨fun other member => ?_, sorted⟩
      rcases List.mem_cons.1 member with rfl | member
      · exact before
      · exact trans _ _ _ before (least other member)
    next after =>
      refine List.pairwise_cons.2 ⟨fun other member => ?_, ih tail⟩
      rcases List.mem_cons.1 ((insertBy_perm le item rest).mem_iff.1 member) with rfl | member
      · exact (total first other).resolve_right after
      · exact least other member

theorem sortBy_pairwise {le : α → α → Bool} (total : ∀ a b, le a b = true ∨ le b a = true)
    (trans : ∀ a b c, le a b = true → le b c = true → le a c = true) (items : List α) :
    (sortBy le items).Pairwise (le · · = true) := by
  induction items with
  | nil => exact .nil
  | cons first rest ih => exact insertBy_pairwise total trans first _ ih

@[simp] theorem mem_distinct [DecidableEq α] {items : List α} {item : α} :
    item ∈ distinct items ↔ item ∈ items := by
  induction items with
  | nil => rfl
  | cons first rest ih =>
    by_cases same : item = first <;> simp [distinct, same, ih]

theorem nodup_distinct [DecidableEq α] (items : List α) : (distinct items).Nodup := by
  induction items with
  | nil => exact .nil
  | cons first rest ih => exact List.nodup_cons.2 ⟨by simp, ih.filter _⟩

end BuildPipeline
