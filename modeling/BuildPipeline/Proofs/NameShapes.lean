import BuildPipeline.Platform.Registry
import Mathlib.Data.Nat.Digits.Defs

/-! Code units that the names of stages and jobs hold or do without. They keep build
jobs apart from the entries that a platform has under names of its own. -/

namespace BuildPipeline

theorem isDigit_ofChar {character : Char} (digit : character.isDigit = true) :
    isDigit (CodeUnit.ofChar character) = true := by
  simp only [Char.isDigit, ge_iff_le, Bool.and_eq_true, decide_eq_true_eq, UInt32.le_iff_toNat_le] at digit
  have low : '0'.val.toNat = 48 := rfl
  have high : '9'.val.toNat = 57 := rfl
  have zero : (CodeUnit.ofChar '0').toNat = 48 := rfl
  have nine : (CodeUnit.ofChar '9').toNat = 57 := rfl
  have unit : (CodeUnit.ofChar character).toNat = character.val.toNat % 2 ^ 16 := UInt32.toNat_toUInt16 _
  simp only [isDigit, Bool.and_eq_true, decide_eq_true_eq, UInt16.le_iff_toNat_le]
  omega

theorem isDigit_of_mem_decimal {value : Nat} {unit : CodeUnit} (member : unit ∈ decimal value) :
    isDigit unit = true := by
  obtain ⟨character, listed, rfl⟩ := List.mem_map.1 member
  exact isDigit_ofChar (Nat.isDigit_of_mem_toDigits (by decide) (by decide) listed)

/-- Digits and what stands between them in the text of a number. -/
def isNumeralUnit (unit : CodeUnit) : Bool :=
  isDigit unit || unit = '.' || unit = 'e' || unit = '+' || unit = '-'

def IsNumeral (text : Text) : Prop :=
  ∀ unit ∈ text, isNumeralUnit unit = true

namespace IsNumeral

variable {left right : Text}

theorem of_all (every : left.all isNumeralUnit = true) : IsNumeral left :=
  List.all_eq_true.1 every

theorem append (first : IsNumeral left) (second : IsNumeral right) : IsNumeral (left ++ right) :=
  List.forall_mem_append.2 ⟨first, second⟩

theorem take (whole : IsNumeral left) (count : Nat) : IsNumeral (left.take count) :=
  fun unit member => whole unit (List.mem_of_mem_take member)

theorem drop (whole : IsNumeral left) (count : Nat) : IsNumeral (left.drop count) :=
  fun unit member => whole unit (List.mem_of_mem_drop member)

end IsNumeral

theorem isNumeral_decimal (value : Nat) : IsNumeral (decimal value) := by
  intro unit member
  simp [isNumeralUnit, isDigit_of_mem_decimal member]

namespace Number

theorem isNumeral_zeros (count : Int) : IsNumeral (zeros count) := by
  intro unit member
  obtain rfl := List.eq_of_mem_replicate member
  rfl

theorem isNumeral_shortestDigits (value : Rat) : IsNumeral (shortestDigits value).1 := by
  have zero : ("0" : Text).all isNumeralUnit = true := by decide +kernel
  have one : ("1" : Text).all isNumeralUnit = true := by decide +kernel
  unfold shortestDigits
  simp only
  split
  · exact .of_all zero
  · split
    · exact .of_all one
    · exact isNumeral_decimal _

theorem isNumeral_placePoint {digits : Text} (numeral : IsNumeral digits) (point : Int) :
    IsNumeral (placePoint digits point) := by
  have sign : ∀ text ∈ (["0.", ".", "e", "-", "+", []] : List Text), IsNumeral text := by
    have all : ∀ text ∈ (["0.", ".", "e", "-", "+", []] : List Text), text.all isNumeralUnit = true := by
      decide +kernel
    exact fun text listed => .of_all (all text listed)
  unfold placePoint
  split
  · exact numeral.append (isNumeral_zeros _)
  · split
    · exact ((numeral.take _).append (sign "." (by simp))).append (numeral.drop _)
    · split
      · exact ((sign "0." (by simp)).append (isNumeral_zeros _)).append numeral
      · refine ((((numeral.take 1).append ?_).append (sign "e" (by simp))).append ?_).append (isNumeral_decimal _)
        · split
          · exact sign [] (by simp)
          · exact (sign "." (by simp)).append (numeral.drop 1)
        · split <;> exact sign _ (by simp)

theorem isNumeral_positiveText (value : Rat) : IsNumeral (positiveText value) :=
  isNumeral_placePoint (isNumeral_shortestDigits value) _

end Number

theorem isNumeral_numeral (value : Nat) : IsNumeral (numeral value) := by
  unfold numeral Number.text
  simp only
  split
  · exact .of_all (by decide +kernel)
  · split
    · exact Number.isNumeral_positiveText _
    · exact IsNumeral.append (.of_all (by decide +kernel)) (Number.isNumeral_positiveText _)

/-- A stage is told from what follows it by the first colon. -/
theorem takeWhile_stageName (stage : Nat) (rest : Text) :
    (stageName stage ++ ": " ++ rest).takeWhile (· ≠ CodeUnit.ofChar ':') = stageName stage := by
  have plain : ∀ unit ∈ stageName stage, decide (unit ≠ CodeUnit.ofChar ':') = true := by
    intro unit member
    rcases List.mem_append.1 member with fixed | numbered
    · have every : ("stage-" : Text).all (fun unit => decide (unit ≠ CodeUnit.ofChar ':')) = true := by decide +kernel
      exact List.all_eq_true.1 every unit fixed
    · have listed := isNumeral_numeral stage unit numbered
      rw [decide_eq_true_eq]
      rintro rfl
      exact absurd listed (by decide +kernel)
  rw [List.append_assoc, List.takeWhile_append_of_pos plain]
  exact List.append_nil _

/-- The stage of the index is no number. -/
theorem indexStage_notMem (stages : List Nat) : Gitlab.indexStage ∉ stages.map stageName := by
  intro listed
  obtain ⟨stage, _, same⟩ := List.mem_map.1 listed
  have split : Gitlab.indexStage = ("stage-" : Text) ++ "rebuild-index" := by decide +kernel
  have name : numeral stage = "rebuild-index" := List.append_cancel_left (same.trans split)
  have letter := isNumeral_numeral stage (CodeUnit.ofChar 'r') (by rw [name]; decide +kernel)
  exact absurd letter (by decide +kernel)

namespace Gitlab

/-- Names of entries that are no build jobs. -/
def fixedNames : List Text :=
  ["no-specs-to-rebuild", "rebuild-index", "stages", "variables", "workflow"]

/-- A job name has the blank in front of its fingerprint, however long its label is. -/
theorem jobName_notMem_fixedNames (node : SpecNode) : jobName node ∉ fixedNames := by
  have blank : .space ∈ jobName node := List.mem_append_right _ (List.mem_append_left _ (by decide +kernel))
  have solid : ∀ name ∈ fixedNames, .space ∉ name := by decide +kernel
  exact fun fixed => solid _ fixed blank

end Gitlab

namespace Github

def fixedIds : List Text := ["noop"]

theorem jobId_notMem_fixedIds (node : SpecNode) : jobId node ∉ fixedIds := by
  have dash : CodeUnit.ofChar '-' ∈ jobId node :=
    List.mem_append_left _ (List.mem_append_right _ (by decide +kernel))
  have solid : ∀ id ∈ fixedIds, CodeUnit.ofChar '-' ∉ id := by decide +kernel
  exact fun fixed => solid _ fixed dash

end Github

end BuildPipeline
