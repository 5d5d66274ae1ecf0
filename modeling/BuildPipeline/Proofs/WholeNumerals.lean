import BuildPipeline.Number.Shortest
import Mathlib.Algebra.Order.Field.Rat
import Mathlib.Data.Rat.Floor
import Mathlib.Tactic.Linarith

/-! Whole numbers below 2^53 are written in all their digits. The values that round to
such a number lie within a half of it, so no shorter text than its own reads back. -/

namespace BuildPipeline

theorem decimal_mul_pow {digits : Nat} (positive : 0 < digits) (count : Nat) :
    decimal (digits * 10 ^ count) = decimal digits ++ List.replicate count 0x30 := by
  induction count with
  | zero => simp
  | succ count ih =>
    have below : 0 < digits * 10 ^ count := Nat.mul_pos positive (Nat.pow_pos (by decide))
    have split : digits * 10 ^ (count + 1) = 10 * (digits * 10 ^ count) + 0 := by
      rw [Nat.pow_succ]
      ring
    have last : (Nat.toDigits 10 0).map CodeUnit.ofChar = [0x30] := by decide +kernel
    rw [decimal, split, ← Nat.toDigits_append_toDigits (by decide) below (by decide), List.map_append, ← decimal, ih,
      last, List.append_assoc, List.replicate_succ']

theorem length_decimal (value : Nat) : (decimal value).length = (Nat.toDigits 10 value).length :=
  List.length_map _

namespace Number

theorem powerOfTwo_le_one {exponent : Int} (small : exponent ≤ 0) :
    0 < Binary64.powerOfTwo exponent ∧ Binary64.powerOfTwo exponent ≤ 1 := by
  unfold Binary64.powerOfTwo
  split
  next high =>
    have zero : exponent = 0 := le_antisymm small high
    subst zero
    norm_num
  next =>
    have power : (1 : Rat) ≤ (Nat.pow 2 (-exponent).toNat : Nat) := by
      exact_mod_cast Nat.one_le_two_pow
    constructor
    · positivity
    · rw [div_le_one (by linarith)]
      exact power

theorem unitExponent_le {value : Nat} (positive : 0 < value) (small : value < 2 ^ 53) :
    Binary64.unitExponent (value : Rat) ≤ 0 := by
  have log : value.log2 < 53 := (Nat.log2_lt (by omega)).2 small
  have one : Nat.log2 1 = 0 := by decide
  unfold Binary64.unitExponent
  simp only [Rat.num_natCast, Int.toNat_natCast, Rat.den_natCast, one]
  refine max_le ?_ (by decide)
  split <;> omega

/-- Of the whole numbers only the value itself reads back as it. -/
theorem contains_natCast_iff {value : Nat} (positive : 0 < value) (small : value < 2 ^ 53) (candidate : Nat) :
    (RoundingInterval.of (value : Rat)).contains (candidate : Rat) = true ↔ candidate = value := by
  obtain ⟨some, one⟩ := powerOfTwo_le_one (unitExponent_le positive small)
  have bounds : (value : Rat) - 1 / 2 ≤ (RoundingInterval.of (value : Rat)).low ∧
      (RoundingInterval.of (value : Rat)).low < value ∧ (value : Rat) < (RoundingInterval.of (value : Rat)).high ∧
      (RoundingInterval.of (value : Rat)).high ≤ value + 1 / 2 := by
    unfold RoundingInterval.of
    simp only
    refine ⟨?_, ?_, ?_, ?_⟩
    · split <;> linarith
    · split <;> linarith
    · linarith
    · linarith
  obtain ⟨lowest, low, high, highest⟩ := bounds
  unfold RoundingInterval.contains
  simp only [Bool.or_eq_true, Bool.and_eq_true, decide_eq_true_eq, beq_iff_eq]
  constructor
  · intro inside
    have near : (value : Rat) - 1 / 2 ≤ candidate ∧ (candidate : Rat) ≤ value + 1 / 2 := by
      rcases inside with ⟨above, below⟩ | ⟨_, same | same⟩
      · exact ⟨by linarith, by linarith⟩
      · rw [same]
        exact ⟨by linarith, by linarith⟩
      · rw [same]
        exact ⟨by linarith, by linarith⟩
    have above : (value : Rat) < candidate + 1 := by linarith
    have below : (candidate : Rat) < value + 1 := by linarith
    have above' : value < candidate + 1 := by exact_mod_cast above
    have below' : candidate < value + 1 := by exact_mod_cast below
    omega
  · rintro rfl
    exact .inl ⟨low, high⟩

theorem toNat_floor_natCast (value : Nat) : (value : Rat).floor.toNat = value := by
  have whole : (value : Rat).floor = value := by
    exact_mod_cast Rat.floor_intCast value
  rw [whole, Int.toNat_natCast]

theorem decimalPoint_natCast {value : Nat} (positive : 0 < value) :
    decimalPoint (value : Rat) = (decimal value).length := by
  have one : (1 : Rat) ≤ value := by exact_mod_cast positive
  rw [decimalPoint, if_pos one, toNat_floor_natCast, digitCount, if_neg (by omega), length_decimal]

theorem powerOfTen_natCast (exponent : Nat) : powerOfTen exponent = ((10 ^ exponent : Nat) : Rat) := by
  rw [powerOfTen, if_pos (Int.natCast_nonneg exponent), Int.toNat_natCast]
  rfl

theorem eq_of_nearestDigits? {value point count digits : Nat} (positive : 0 < value) (small : value < 2 ^ 53)
    (found : nearestDigits? (value : Rat) (.of (value : Rat)) ((point + count : Nat) : Int) count = some digits) :
    digits * 10 ^ point = value := by
  have shift : (((point + count : Nat) : Int) - count) = (point : Nat) := by omega
  have reads : ∀ candidate : Nat, (RoundingInterval.of (value : Rat)).contains
      ((candidate : Rat) * powerOfTen (((point + count : Nat) : Int) - count)) = true → candidate * 10 ^ point = value := by
    intro candidate inside
    rw [shift, powerOfTen_natCast, ← Nat.cast_mul] at inside
    exact (contains_natCast_iff positive small _).1 inside
  unfold nearestDigits? at found
  simp only at found
  generalize ((value : Rat) / powerOfTen (((point + count : Nat) : Int) - count)).floor.toNat = lower at found
  split at found
  next => cases found
  next below _ =>
    obtain rfl := Option.some.inj found
    exact reads _ below
  next _ above =>
    obtain rfl := Option.some.inj found
    exact reads _ above
  next below above =>
    have same := reads _ below
    have also := reads _ above
    rw [Nat.add_mul] at also
    have some : 0 < 10 ^ point := Nat.pow_pos (by decide)
    omega

theorem exists_nearestDigits? {value : Nat} (positive : 0 < value) (small : value < 2 ^ 53) (count : Nat) :
    ∃ digits, nearestDigits? (value : Rat) (.of (value : Rat)) (count : Int) count = some digits := by
  have inside := (contains_natCast_iff positive small value).2 rfl
  have unit : powerOfTen ((count : Int) - count) = 1 := by
    rw [Int.sub_self]
    rfl
  unfold nearestDigits?
  simp only [unit, div_one, mul_one, toNat_floor_natCast, inside]
  cases (RoundingInterval.of (value : Rat)).contains ((value + 1 : Nat) : Rat) with
  | false => exact ⟨value, rfl⟩
  | true =>
    simp only
    split
    · exact ⟨_, rfl⟩
    · split
      · exact ⟨_, rfl⟩
      · split <;> exact ⟨_, rfl⟩

theorem length_decimal_mul_pow {digits : Nat} (positive : 0 < digits) (count : Nat) :
    (decimal (digits * 10 ^ count)).length = (decimal digits).length + count := by
  rw [decimal_mul_pow positive, List.length_append, List.length_replicate]

/-- The first count of digits with a number that reads back is no more than all of them. -/
theorem exists_count_of_findSome? {value : Nat} (positive : 0 < value) (small : value < 2 ^ 53)
    (bound : (decimal value).length ≤ 17) :
    ∃ digits count, count ≤ (decimal value).length ∧
      nearestDigits? (value : Rat) (.of (value : Rat)) ((decimal value).length : Int) count = some digits ∧
      ((List.range 17).findSome? fun fewer =>
        (nearestDigits? (value : Rat) (.of (value : Rat)) ((decimal value).length : Int) (fewer + 1)).map
          (·, fewer + 1)) = some (digits, count) := by
  obtain ⟨all, reads⟩ := exists_nearestDigits? positive small (decimal value).length
  have some : 0 < (decimal value).length := by
    rw [length_decimal]
    exact Nat.length_toDigits_pos
  have last : (decimal value).length - 1 ∈ List.range 17 := List.mem_range.2 (by omega)
  have whole : (decimal value).length - 1 + 1 = (decimal value).length := by omega
  cases found : (List.range 17).findSome? fun fewer =>
      (nearestDigits? (value : Rat) (.of (value : Rat)) ((decimal value).length : Int) (fewer + 1)).map
        (·, fewer + 1) with
  | none =>
    have silent := List.findSome?_eq_none_iff.1 found _ last
    simp [whole, reads] at silent
  | some result =>
    obtain ⟨before, fewer, after, split, taken, silent⟩ := List.findSome?_eq_some_iff.1 found
    obtain ⟨digits, near, rfl⟩ := Option.map_eq_some_iff.1 taken
    refine ⟨digits, fewer + 1, ?_, near, rfl⟩
    have ascending : (List.range 17).Pairwise (· < ·) := List.pairwise_lt_range
    rw [split] at ascending last
    rcases List.mem_append.1 last with earlier | here
    · have none := silent _ earlier
      simp [whole, reads] at none
    · rcases List.mem_cons.1 here with same | later
      · omega
      · have above := (List.pairwise_cons.1 (List.pairwise_append.1 ascending).2.1).1 _ later
        omega

theorem shortestDigits_natCast {value : Nat} (positive : 0 < value) (small : value < 2 ^ 53)
    (bound : (decimal value).length ≤ 17) :
    ∃ digits point, 0 < digits ∧ digits * 10 ^ point = value ∧
      shortestDigits (value : Rat) = (decimal digits, ((decimal value).length : Int)) := by
  obtain ⟨digits, count, within, near, found⟩ := exists_count_of_findSome? positive small bound
  have whole : (decimal value).length - count + count = (decimal value).length := by omega
  rw [← whole] at near
  have product := eq_of_nearestDigits? positive small near
  have some : 0 < digits := Nat.pos_of_ne_zero fun none => by simp [none] at product; omega
  have length := length_decimal_mul_pow some ((decimal value).length - count)
  rw [product] at length
  have room : digits ≠ Nat.pow 10 count := by
    rintro rfl
    have more := length_decimal_mul_pow Nat.one_pos count
    rw [Nat.one_mul] at more
    have one : (decimal 1).length = 1 := by decide +kernel
    have same : (decimal (Nat.pow 10 count)).length = (decimal (10 ^ count)).length := rfl
    omega
  refine ⟨digits, _, some, product, ?_⟩
  unfold shortestDigits
  simp only [decimalPoint_natCast positive, found, if_neg room]

end Number

theorem numeral_of_lt {value : Nat} (small : value < 2 ^ 53) : numeral value = decimal value := by
  rcases Nat.eq_zero_or_pos value with rfl | positive
  · decide +kernel
  · have above : (0 : Rat) < value := by exact_mod_cast positive
    have bound : (decimal value).length ≤ 16 := by
      rw [length_decimal, Nat.length_toDigits_le_iff (by decide) (by decide)]
      omega
    obtain ⟨digits, point, some, product, shortest⟩ := Number.shortestDigits_natCast positive small (by omega)
    have length := Number.length_decimal_mul_pow some point
    rw [product] at length
    have place : ((decimal value).length : Int) - (decimal digits).length = (point : Nat) := by omega
    rw [numeral, Number.text, if_neg above.ne', if_pos above, Number.positiveText, shortest]
    simp only
    rw [Number.placePoint, if_pos ⟨by omega, by omega⟩, place, Number.zeros, Int.toNat_natCast,
      ← decimal_mul_pow some, product]

end BuildPipeline
