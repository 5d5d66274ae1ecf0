import BuildPipeline.Rule.Version
import Mathlib.Order.PiLex

/-! Versions ordered by their components, as if zeros without end stood behind the
last one. The comparison of ranges decides this order, and the components that a
caret or a tilde fixes are an interval of it. -/

namespace BuildPipeline.Version

/-- The place of a version in the order: its components, compared from the first on. -/
def place (version : Version) : Lex (Nat → Nat) :=
  toLex version.part

def AtMost (left right : Version) : Prop :=
  left.place ≤ right.place

def Below (left right : Version) : Prop :=
  left.place < right.place

/-- The same version, written with more or fewer zeros at its end. -/
def Equivalent (left right : Version) : Prop :=
  left.place = right.place

theorem atMost_preorder : IsPreorder Version AtMost where
  refl version := le_refl version.place
  trans _ _ _ := le_trans

theorem atMost_total : Std.Total AtMost where
  total left right := le_total left.place right.place

variable {left right : Version}

theorem below_iff : left.Below right ↔
    ∃ index, (∀ earlier < index, left.part earlier = right.part earlier) ∧ left.part index < right.part index :=
  Iff.rfl

theorem equivalent_iff : left.Equivalent right ↔ ∀ index, left.part index = right.part index :=
  funext_iff

theorem atMost_iff : left.AtMost right ↔ ¬ right.Below left :=
  not_lt.symm

theorem part_of_length_le {version : Version} {index : Nat} (past : version.length ≤ index) :
    version.part index = 0 := by
  simp [part, past]

@[simp] theorem part_cons_zero (first : Nat) (rest : Version) : part (first :: rest) 0 = first := rfl

@[simp] theorem part_cons_succ (first : Nat) (rest : Version) (index : Nat) :
    part (first :: rest) (index + 1) = part rest index := rfl

theorem part_append_zeros (version : Version) (count index : Nat) :
    (version ++ List.replicate count 0).part index = version.part index := by
  rcases Nat.lt_or_ge index version.length with inside | past
  · simp [part, List.getElem?_append_left inside]
  · rw [part_of_length_le past, part, List.getD_eq_getElem?_getD, List.getElem?_append_right past]
    cases found : (List.replicate count 0)[index - version.length]? with
    | none => rfl
    | some component => simp [List.eq_of_mem_replicate (List.mem_of_getElem? found)]

theorem equivalent_append_zeros (version : Version) (count : Nat) :
    (version ++ List.replicate count 0).Equivalent version :=
  equivalent_iff.2 (part_append_zeros version count)

/-- The verdict on one component. -/
def verdict (left right : Version) (index : Nat) : Option Ordering :=
  if left.part index < right.part index then some .lt
  else if right.part index < left.part index then some .gt
  else none

theorem verdict_eq_none_iff {index : Nat} : verdict left right index = none ↔ left.part index = right.part index := by
  unfold verdict
  split_ifs <;> simp <;> omega

theorem verdict_eq_some_iff {index : Nat} {order : Ordering} : verdict left right index = some order ↔
    order = .lt ∧ left.part index < right.part index ∨ order = .gt ∧ right.part index < left.part index := by
  unfold verdict
  split_ifs <;> cases order <;> simp <;> omega

/-- In a run of numbers the smaller ones stand in front. -/
theorem mem_of_range_eq {count index : Nat} {before after : List Nat}
    (split : List.range count = before ++ index :: after) {earlier : Nat} (lower : earlier < index) :
    earlier ∈ before := by
  have ascending : (before ++ index :: after).Pairwise (· < ·) := split ▸ List.pairwise_lt_range
  have counted : index < count := List.mem_range.1 (split ▸ by simp)
  have listed : earlier ∈ before ++ index :: after := split ▸ List.mem_range.2 (lower.trans counted)
  rcases List.mem_append.1 listed with front | back
  · exact front
  · rcases List.mem_cons.1 back with rfl | later
    · exact absurd lower (Nat.lt_irrefl _)
    · have above := (List.pairwise_cons.1 (List.pairwise_append.1 ascending).2.1).1 earlier later
      exact absurd lower (Nat.lt_asymm above)

/-- How the left version stands to the right one. -/
def Stands (left right : Version) : Ordering → Prop
  | .lt => left.Below right
  | .eq => left.Equivalent right
  | .gt => right.Below left

theorem Stands.unique {order other : Ordering} (stands : left.Stands right order) (also : left.Stands right other) :
    order = other := by
  cases order <;> cases other
  case lt.lt | eq.eq | gt.gt => rfl
  case lt.eq => exact absurd also (ne_of_lt stands)
  case lt.gt => exact absurd also (lt_asymm stands)
  case eq.lt => exact absurd stands (ne_of_lt also)
  case eq.gt => exact absurd stands (ne_of_gt also)
  case gt.lt => exact absurd also (lt_asymm stands)
  case gt.eq => exact absurd also (ne_of_gt stands)

theorem stands_compare (left right : Version) : left.Stands right (left.compare right) := by
  have unfolded : left.compare right =
      ((List.range (max left.length right.length)).findSome? (verdict left right)).getD .eq := rfl
  rw [unfolded]
  cases found : (List.range (max left.length right.length)).findSome? (verdict left right) with
  | none =>
    refine equivalent_iff.2 fun index => ?_
    rcases Nat.lt_or_ge index (max left.length right.length) with inside | past
    · exact verdict_eq_none_iff.1 (List.findSome?_eq_none_iff.1 found index (List.mem_range.2 inside))
    · rw [part_of_length_le (by omega), part_of_length_le (by omega)]
  | some order =>
    obtain ⟨before, index, after, split, decides, passed⟩ := List.findSome?_eq_some_iff.1 found
    have same : ∀ earlier < index, left.part earlier = right.part earlier := fun earlier lower =>
      verdict_eq_none_iff.1 (passed earlier (mem_of_range_eq split lower))
    rcases verdict_eq_some_iff.1 decides with ⟨rfl, lower⟩ | ⟨rfl, higher⟩
    · exact below_iff.2 ⟨index, same, lower⟩
    · exact below_iff.2 ⟨index, fun earlier lower => (same earlier lower).symm, higher⟩

theorem compare_eq_iff {order : Ordering} : left.compare right = order ↔ left.Stands right order := by
  constructor
  · rintro rfl
    exact stands_compare left right
  · exact (stands_compare left right).unique

theorem compare_ne_lt_iff : left.compare right ≠ .lt ↔ right.AtMost left := by
  rw [ne_eq, compare_eq_iff, atMost_iff]
  rfl

theorem compare_ne_gt_iff : left.compare right ≠ .gt ↔ left.AtMost right := by
  rw [ne_eq, compare_eq_iff, atMost_iff]
  rfl

theorem agree_iff {count : Nat} :
    agree count left right = true ↔ ∀ index < count, left.part index = right.part index := by
  simp [agree]

/-- The version with its last component one higher. -/
def raiseLast : Version → Version
  | [] => []
  | [last] => [last + 1]
  | first :: second :: rest => first :: raiseLast (second :: rest)

/-- What a caret fixes: all up to the left-most component that is not zero. -/
def caretFront : Version → Version
  | [] => []
  | first :: rest => if first = 0 then first :: caretFront rest else [first]

/-- What a tilde fixes: two components, or all but the last of more than three. -/
def tildeFront (bound : Version) : Version :=
  if bound.length ≤ 3 then bound.take 2 else bound.dropLast

theorem part_raiseLast (version : Version) (index : Nat) :
    version.raiseLast.part index =
      if index + 1 = version.length then version.part index + 1 else version.part index := by
  induction version using raiseLast.induct generalizing index with
  | case1 => rfl
  | case2 last => cases index <;> simp [raiseLast, part]
  | case3 first second rest ih =>
    cases index with
    | zero => simp [raiseLast]
    | succ index =>
      rw [raiseLast, part_cons_succ, part_cons_succ, ih]
      simp

theorem part_take (version : Version) (count index : Nat) :
    part (version.take count) index = if index < count then version.part index else 0 := by
  simp only [part, List.getD_eq_getElem?_getD, List.getElem?_take]
  split <;> rfl

/-- From a bound on, the versions below its front with the last component raised are
those that have its front. -/
theorem below_raiseLast_take_iff {version bound : Version} {count : Nat} (some : 0 < count)
    (within : count ≤ bound.length) (least : bound.AtMost version) :
    version.Below (raiseLast (bound.take count)) ↔ ∀ index < count, version.part index = bound.part index := by
  have raised (index : Nat) : (raiseLast (bound.take count)).part index =
      if index + 1 = count then bound.part index + 1 else if index < count then bound.part index else 0 := by
    rw [part_raiseLast, part_take, List.length_take, Nat.min_eq_left within]
    split_ifs <;> omega
  constructor
  · intro below
    obtain ⟨index, same, lower⟩ := below_iff.1 below
    rw [raised] at lower
    have inside : index < count := by
      by_contra past
      rw [if_neg (by omega), if_neg past] at lower
      exact Nat.not_lt_zero _ lower
    have front : ∀ earlier < index, version.part earlier = bound.part earlier := fun earlier before => by
      rw [same earlier before, raised, if_neg (by omega), if_pos (by omega)]
    have reached : ¬ version.part index < bound.part index := fun less =>
      atMost_iff.1 least (below_iff.2 ⟨index, front, less⟩)
    -- Only the raised component leaves room above the bound.
    have last : index + 1 = count := by
      by_contra inner
      rw [if_neg inner, if_pos inside] at lower
      exact reached lower
    rw [if_pos last] at lower
    intro earlier before
    rcases Nat.lt_or_ge earlier index with ahead | final
    · exact front earlier ahead
    · obtain rfl : earlier = index := by omega
      omega
  · intro same
    refine below_iff.2 ⟨count - 1, fun earlier lower => ?_, ?_⟩
    · rw [raised, if_neg (by omega), if_pos (by omega), same earlier (by omega)]
    · rw [raised, if_pos (by omega), same _ (by omega)]
      exact Nat.lt_succ_self _

theorem caretLength_cons (first : Nat) (rest : Version) :
    caretLength (first :: rest) = if first = 0 then caretLength rest + 1 else 1 := by
  by_cases zero : first = 0
  · simp only [caretLength, List.findIdx?_cons, zero, if_true]
    cases rest.findIdx? (fun component => decide (component ≠ 0)) <;> simp
  · simp [caretLength, List.findIdx?_cons, zero]

theorem caretFront_eq (bound : Version) : caretFront bound = bound.take bound.caretLength := by
  induction bound with
  | nil => rfl
  | cons first rest ih =>
    rw [caretFront, caretLength_cons]
    split
    · rw [List.take_succ_cons, ih]
    · rfl

theorem caretLength_bounds {bound : Version} (filled : bound ≠ []) :
    0 < bound.caretLength ∧ bound.caretLength ≤ bound.length := by
  have within : bound.caretLength ≤ bound.length := by
    clear filled
    induction bound with
    | nil => exact Nat.le_refl _
    | cons first rest ih =>
      rw [caretLength_cons, List.length_cons]
      split <;> omega
  refine ⟨?_, within⟩
  cases bound with
  | nil => exact absurd rfl filled
  | cons first rest =>
    rw [caretLength_cons]
    split <;> omega

theorem tildeFront_eq (bound : Version) : tildeFront bound = bound.take bound.tildeLength := by
  unfold tildeFront tildeLength
  split_ifs with short tiny
  · rw [List.take_of_length_le tiny, List.take_of_length_le (Nat.le_refl _)]
  · rw [show bound.length - 1 = 2 by omega]
  · omega
  · rw [List.dropLast_eq_take]

theorem tildeLength_bounds {bound : Version} (filled : bound ≠ []) :
    0 < bound.tildeLength ∧ bound.tildeLength ≤ bound.length := by
  have some := List.length_pos_iff.2 filled
  unfold tildeLength
  split <;> omega

end BuildPipeline.Version

namespace BuildPipeline.RangeOperator
open Version

/-- The versions that a range stands for. -/
def Covers (bound version : Version) : RangeOperator → Prop
  | .atLeast => bound.AtMost version
  | .above => bound.Below version
  | .atMost => version.AtMost bound
  | .below => version.Below bound
  | .exactly => version.Equivalent bound
  | .caret => bound.AtMost version ∧ version.Below (raiseLast (caretFront bound))
  | .tilde => bound.AtMost version ∧ version.Below (raiseLast (tildeFront bound))

theorem admits_iff {version bound : Version} (filled : bound ≠ []) (operator : RangeOperator) :
    operator.admits version bound = true ↔ operator.Covers bound version := by
  cases operator with
  | atLeast => simp only [admits, Covers, decide_eq_true_eq, compare_ne_lt_iff]
  | above =>
    simp only [admits, Covers, decide_eq_true_eq, compare_eq_iff]
    rfl
  | atMost => simp only [admits, Covers, decide_eq_true_eq, compare_ne_gt_iff]
  | below =>
    simp only [admits, Covers, decide_eq_true_eq, compare_eq_iff]
    rfl
  | exactly =>
    simp only [admits, Covers, decide_eq_true_eq, compare_eq_iff]
    rfl
  | caret =>
    simp only [admits, Covers, Bool.and_eq_true, decide_eq_true_eq, compare_ne_lt_iff, agree_iff, caretFront_eq]
    obtain ⟨some, within⟩ := caretLength_bounds filled
    exact and_congr_right fun least => (below_raiseLast_take_iff some within least).symm
  | tilde =>
    simp only [admits, Covers, Bool.and_eq_true, decide_eq_true_eq, compare_ne_lt_iff, agree_iff, tildeFront_eq]
    obtain ⟨some, within⟩ := tildeLength_bounds filled
    exact and_congr_right fun least => (below_raiseLast_take_iff some within least).symm

/-- Between two versions that a range covers it covers all. -/
theorem Covers.between {operator : RangeOperator} {bound first middle last : Version}
    (low : first.AtMost middle) (high : middle.AtMost last) (one : operator.Covers bound first)
    (other : operator.Covers bound last) : operator.Covers bound middle := by
  cases operator with
  | atLeast => exact le_trans one low
  | above => exact lt_of_lt_of_le one low
  | atMost => exact le_trans high other
  | below => exact lt_of_le_of_lt high other
  | exactly => exact le_antisymm (le_of_le_of_eq high other) (le_of_eq_of_le one.symm low)
  | caret | tilde => exact ⟨le_trans one.1 low, lt_of_le_of_lt high other.2⟩

/-- Zeros at the end of a version make no difference to a range. -/
theorem covers_congr {operator : RangeOperator} {bound version other : Version} (same : version.Equivalent other) :
    operator.Covers bound version ↔ operator.Covers bound other := by
  cases operator <;> simp only [Covers, AtMost, Below, Equivalent, show version.place = other.place from same]

end BuildPipeline.RangeOperator
