import BuildPipeline.Plan.Jobs
import Mathlib.Algebra.Order.Ring.Rat
import Mathlib.Data.Rat.Lemmas
import Mathlib.Tactic.Ring

/-! Whole numbers among the doubles, and when the step to the next stage is one
up. From 2^53 on doubles are even, so adding one lands halfway between two of
them, and the even neighbour may be the one that was left. -/

namespace BuildPipeline

/-- A value that double precision holds: 53 significant bits and an exponent in
range. The values without a fraction to them are doubles too. -/
def Number.IsDouble : Number → Prop
  | .finite value => ∃ mantissa exponent : Int, value = mantissa * Binary64.powerOfTwo exponent ∧
      mantissa.natAbs < 2 ^ 53 ∧ -1074 ≤ exponent ∧ exponent ≤ 971
  | _ => True

namespace Binary64

def unit (value : Nat) : Nat := 2 ^ (value.log2 - 52)

/-- A whole number that has no more than 53 significant bits. -/
def IsWhole (value : Nat) : Prop :=
  value < 2 ^ 53 ∨ unit value ∣ value

theorem isWhole_mul_pow {mantissa : Nat} (small : mantissa < 2 ^ 53) (exponent : Nat) :
    IsWhole (mantissa * 2 ^ exponent) := by
  by_cases zero : mantissa = 0
  · exact .inl (by simp [zero])
  · right
    have positive : mantissa * 2 ^ exponent ≠ 0 := Nat.mul_ne_zero zero (by simp)
    have bound : mantissa * 2 ^ exponent < 2 ^ (53 + exponent) := by
      rw [Nat.pow_add]
      exact Nat.mul_lt_mul_of_pos_right small (Nat.two_pow_pos _)
    have place := (Nat.log2_lt positive).2 bound
    exact (Nat.pow_dvd_pow 2 (by omega)).trans (Nat.dvd_mul_left _ _)

theorem log2_le_log2 {low high : Nat} (positive : low ≠ 0) (below : low ≤ high) : low.log2 ≤ high.log2 :=
  (Nat.le_log2 (by omega)).2 ((Nat.log2_self_le positive).trans below)

theorem pow_mul_unit_le {value : Nat} (large : 2 ^ 53 ≤ value) : 2 ^ 52 * unit value ≤ value := by
  have positive : value ≠ 0 := by omega
  have place : 53 ≤ value.log2 := (Nat.le_log2 positive).2 large
  rw [unit, ← Nat.pow_add, Nat.add_sub_cancel' (by omega)]
  exact Nat.log2_self_le positive

/-- A double off the grid of a larger value lies below all of its binades. -/
theorem lt_of_not_dvd {value double : Nat} (large : 2 ^ 53 ≤ value) (whole : IsWhole double)
    (below : double ≤ value) (apart : ¬ unit value ∣ double) : double < 2 ^ 52 * unit value := by
  have place : 53 ≤ value.log2 := (Nat.le_log2 (by omega)).2 large
  have first : 2 ^ 52 * unit value = 2 ^ value.log2 := by
    rw [unit, ← Nat.pow_add, Nat.add_sub_cancel' (by omega)]
  by_cases small : double < 2 ^ 53
  · exact Nat.lt_of_lt_of_le small (first ▸ Nat.pow_le_pow_right (by decide) place)
  · have lower : double.log2 < value.log2 := by
      refine Nat.lt_of_le_of_ne (log2_le_log2 (by omega) below) fun same => apart ?_
      rw [unit, ← same]
      exact whole.resolve_left small
    rw [first]
    exact Nat.lt_of_lt_of_le Nat.lt_log2_self (Nat.pow_le_pow_right (by decide) lower)

theorem roundNat_of_lt {value : Nat} (small : value < 2 ^ 53) : roundNat value = value :=
  if_pos small

/-- A rounded value is one of the two neighbours on the grid of its unit. -/
theorem roundNat_eq {value : Nat} (large : 2 ^ 53 ≤ value) :
    roundNat value = roundHalfEven value (unit value) * unit value := by
  have apart : ¬ value < Nat.pow 2 53 := Nat.not_lt.2 large
  simp only [roundNat, apart, if_false]
  rfl

theorem roundHalfEven_le {numerator denominator bound : Nat}
    (within : numerator ≤ bound * denominator) (positive : 0 < denominator) :
    roundHalfEven numerator denominator ≤ bound := by
  have split := Nat.div_add_mod numerator denominator
  have quotient : numerator / denominator ≤ bound := by
    apply Nat.div_le_of_le_mul
    rwa [Nat.mul_comm]
  unfold roundHalfEven
  by_cases exact' : numerator / denominator = bound
  · have rest : numerator % denominator = 0 := by
      rw [exact', Nat.mul_comm] at split
      omega
    simp [rest, positive, exact']
  · simp only
    split
    · exact quotient
    · split
      · omega
      · split <;> omega

theorem le_roundHalfEven (numerator denominator : Nat) :
    numerator / denominator ≤ roundHalfEven numerator denominator := by
  unfold roundHalfEven
  simp only
  split
  · exact Nat.le_refl _
  · split
    · omega
    · split <;> omega

theorem roundHalfEven_le_succ (numerator denominator : Nat) :
    roundHalfEven numerator denominator ≤ numerator / denominator + 1 := by
  unfold roundHalfEven
  simp only
  split
  · exact Nat.le_succ _
  · split
    · exact Nat.le_refl _
    · split <;> omega

theorem unit_pos (value : Nat) : 0 < unit value :=
  Nat.two_pow_pos _

theorem unit_dvd_unit {low high : Nat} (positive : low ≠ 0) (below : low ≤ high) : unit low ∣ unit high :=
  Nat.pow_dvd_pow 2 (Nat.sub_le_sub_right (log2_le_log2 positive below) 52)

/-- Rounding never passes a double from below. -/
theorem roundNat_le {value double : Nat} (whole : IsWhole double) (below : value ≤ double) :
    roundNat value ≤ double := by
  by_cases small : value < 2 ^ 53
  · rwa [roundNat_of_lt small]
  · have large := Nat.not_lt.1 small
    obtain ⟨steps, same⟩ : unit value ∣ double :=
      (unit_dvd_unit (by omega) below).trans (whole.resolve_left (by omega))
    rw [roundNat_eq large, same, Nat.mul_comm (unit value)]
    apply Nat.mul_le_mul_right
    apply roundHalfEven_le _ (unit_pos value)
    rwa [Nat.mul_comm, ← same]

theorem le_roundNat {value double : Nat} (whole : IsWhole double) (above : double ≤ value) :
    double ≤ roundNat value := by
  by_cases small : value < 2 ^ 53
  · rwa [roundNat_of_lt small]
  · have large := Nat.not_lt.1 small
    rw [roundNat_eq large]
    refine Nat.le_trans ?_ (Nat.mul_le_mul_right _ (le_roundHalfEven value (unit value)))
    by_cases aligned : unit value ∣ double
    · obtain ⟨steps, same⟩ := aligned
      rw [same, Nat.mul_comm]
      apply Nat.mul_le_mul_right
      rw [Nat.le_div_iff_mul_le (unit_pos value), Nat.mul_comm, ← same]
      exact above
    · have first := lt_of_not_dvd large whole above aligned
      refine Nat.le_trans (Nat.le_of_lt first) (Nat.mul_le_mul_right _ ?_)
      rw [Nat.le_div_iff_mul_le (unit_pos value)]
      exact pow_mul_unit_le large

theorem roundHalfEven_mono {low high denominator : Nat} (below : low ≤ high) :
    roundHalfEven low denominator ≤ roundHalfEven high denominator := by
  rcases Nat.lt_or_eq_of_le (Nat.div_le_div_right below : low / denominator ≤ high / denominator) with less | same
  · exact (roundHalfEven_le_succ low denominator).trans ((Nat.succ_le_of_lt less).trans (le_roundHalfEven high _))
  · have rest : low % denominator ≤ high % denominator := by
      have first := Nat.div_add_mod low denominator
      have second := Nat.div_add_mod high denominator
      rw [same] at first
      omega
    unfold roundHalfEven
    simp only [same]
    split_ifs <;> omega

/-- Between values of different lengths lies a power of two, which is a double. -/
theorem roundNat_mono {low high : Nat} (below : low ≤ high) : roundNat low ≤ roundNat high := by
  by_cases small : low < 2 ^ 53
  · rw [roundNat_of_lt small]
    exact le_roundNat (.inl small) below
  · have large := Nat.not_lt.1 small
    rcases Nat.lt_or_eq_of_le (log2_le_log2 (by omega) below) with shorter | same
    · have power : IsWhole (2 ^ high.log2) := Nat.one_mul (2 ^ high.log2) ▸ isWhole_mul_pow (by decide) high.log2
      have under : low ≤ 2 ^ high.log2 :=
        (Nat.le_of_lt Nat.lt_log2_self).trans (Nat.pow_le_pow_right (by decide) shorter)
      exact (roundNat_le power under).trans (le_roundNat power (Nat.log2_self_le (by omega)))
    · rw [roundNat_eq large, roundNat_eq (large.trans below), unit, unit, same]
      exact Nat.mul_le_mul_right _ (roundHalfEven_mono below)

theorem roundNat_of_isWhole {value : Nat} (whole : IsWhole value) : roundNat value = value :=
  Nat.le_antisymm (roundNat_le whole (Nat.le_refl _)) (le_roundNat whole (Nat.le_refl _))

theorem roundHalfEven_of_small {quotient rest denominator : Nat} (small : 2 * rest < denominator) :
    roundHalfEven (quotient * denominator + rest) denominator = quotient := by
  have positive : 0 < denominator := by omega
  have remainder : (quotient * denominator + rest) % denominator = rest := by
    rw [Nat.mul_comm, Nat.mul_add_mod, Nat.mod_eq_of_lt (by omega)]
  have whole : (quotient * denominator + rest) / denominator = quotient := by
    rw [Nat.mul_comm, Nat.mul_add_div positive, Nat.div_eq_of_lt (by omega), Nat.add_zero]
  simp [roundHalfEven, remainder, whole, small]

/-- What is rounded to 53 bits has 53 bits, also where it is carried to the next place. -/
theorem isWhole_roundNat (value : Nat) : IsWhole (roundNat value) := by
  by_cases small : value < 2 ^ 53
  · rw [roundNat_of_lt small]
    exact .inl small
  · have large := Nat.not_lt.1 small
    have bound : roundHalfEven value (unit value) ≤ 2 ^ 53 := by
      apply roundHalfEven_le _ (unit_pos value)
      have place : 53 ≤ value.log2 := (Nat.le_log2 (by omega)).2 large
      have below : value < 2 ^ (value.log2 + 1) := Nat.lt_log2_self
      rw [unit, ← Nat.pow_add, show 53 + (value.log2 - 52) = value.log2 + 1 by omega]
      exact Nat.le_of_lt below
    rw [roundNat_eq large]
    rcases Nat.lt_or_eq_of_le bound with less | carried
    · exact isWhole_mul_pow less _
    · rw [carried, unit, ← Nat.pow_add, ← Nat.one_mul (2 ^ _)]
      exact isWhole_mul_pow (by decide) _

/-- The whole doubles that a step of one leaves for a larger one: all below 2^53,
and up to 2^54 those whose even neighbour is the next double. -/
def StepsUp (value : Nat) : Prop :=
  value < 2 ^ 53 ∨ value < 2 ^ 54 ∧ value % 4 = 2

end Binary64

open Binary64

theorem stageAfter_of_lt {stage : Nat} (small : stage < 2 ^ 53) : stageAfter stage = stage + 1 := by
  apply roundNat_of_isWhole
  rcases Nat.lt_or_eq_of_le (Nat.succ_le_of_lt small) with less | same
  · exact .inl less
  · rw [show stage + 1 = 1 * 2 ^ 53 from same]
    exact isWhole_mul_pow (by decide) 53

theorem stageAfter_mono {low high : Nat} (below : low ≤ high) : stageAfter low ≤ stageAfter high :=
  roundNat_mono (Nat.succ_le_succ below)

theorem isWhole_stageAfter (stage : Nat) : IsWhole (stageAfter stage) :=
  isWhole_roundNat _

theorem le_stageAfter {stage : Nat} (whole : IsWhole stage) : stage ≤ stageAfter stage :=
  le_roundNat whole (Nat.le_succ stage)

theorem stageAfter_le {stage double : Nat} (whole : IsWhole double) (below : stage < double) :
    stageAfter stage ≤ double :=
  roundNat_le whole below

theorem unit_succ {stage : Nat} (large : 2 ^ 53 ≤ stage) (even : 2 ∣ stage) : unit (stage + 1) = unit stage := by
  have positive : stage ≠ 0 := by omega
  have low := Nat.log2_self_le positive
  have high : stage < 2 ^ (stage.log2 + 1) := Nat.lt_log2_self
  have same : (stage + 1).log2 = stage.log2 := by
    refine (Nat.log2_eq_iff (by omega)).2 ⟨by omega, ?_⟩
    rw [Nat.pow_succ] at high ⊢
    omega
  rw [unit, unit, same]

theorem stageAfter_eq {stage : Nat} (large : 2 ^ 53 ≤ stage) (even : 2 ∣ stage) :
    stageAfter stage = roundHalfEven (stage + 1) (unit stage) * unit stage := by
  rw [stageAfter, roundNat_eq (by omega), unit_succ large even]

theorem even_of_isWhole {stage : Nat} (whole : IsWhole stage) (large : 2 ^ 53 ≤ stage) : 2 ∣ stage := by
  have place : 53 ≤ stage.log2 := (Nat.le_log2 (by omega)).2 large
  exact (Nat.pow_dvd_pow 2 (by omega : 1 ≤ stage.log2 - 52)).trans (whole.resolve_left (by omega))

/-- From 2^54 on the units are fours or more, and one is lost in the rounding. -/
theorem stageAfter_of_far {stage : Nat} (whole : IsWhole stage) (far : 2 ^ 54 ≤ stage) :
    stageAfter stage = stage := by
  have large : 2 ^ 53 ≤ stage := by omega
  have four : 4 ≤ unit stage := by
    have place : 54 ≤ stage.log2 := (Nat.le_log2 (by omega)).2 far
    exact Nat.pow_le_pow_right (by decide : 0 < 2) (by omega : 2 ≤ stage.log2 - 52)
  obtain ⟨steps, same⟩ := whole.resolve_left (by omega)
  have shape : stage + 1 = steps * unit stage + 1 := by rw [Nat.mul_comm, ← same]
  rw [stageAfter_eq large (even_of_isWhole whole large), shape, roundHalfEven_of_small (by omega),
    Nat.mul_comm, ← same]

theorem lt_stageAfter_iff {stage : Nat} (whole : IsWhole stage) : stage < stageAfter stage ↔ StepsUp stage := by
  unfold StepsUp
  by_cases small : stage < 2 ^ 53
  · rw [stageAfter_of_lt small]
    omega
  · have large := Nat.not_lt.1 small
    have even := even_of_isWhole whole large
    by_cases near : stage < 2 ^ 54
    · have first : stage.log2 = 53 := (Nat.log2_eq_iff (by omega)).2 ⟨large, near⟩
      have two : unit stage = 2 := by rw [unit, first]; rfl
      rw [stageAfter_eq large even]
      simp only [two, roundHalfEven]
      split
      · omega
      · split
        · omega
        · split <;> omega
    · rw [stageAfter_of_far whole (Nat.not_lt.1 near)]
      omega

theorem Number.isWhole_of_isDouble {number : Number} (double : number.IsDouble) {value : Nat}
    (whole : number.natural? = some value) : IsWhole value := by
  cases number with
  | nan | infinity | negativeInfinity => cases whole
  | finite fraction =>
    obtain ⟨mantissa, exponent, same, small, _, _⟩ := double
    simp only [natural?, Option.ite_none_right_eq_some, Option.some.injEq] at whole
    obtain ⟨⟨integral, positive⟩, rfl⟩ := whole
    have number : fraction = fraction.num := (Rat.coe_int_num_of_den_eq_one integral).symm
    rw [number] at same
    have sign : 0 ≤ fraction.num := Rat.num_nonneg.2 positive
    have absolute : fraction.num.toNat = fraction.num.natAbs := by omega
    rw [absolute]
    unfold Binary64.powerOfTwo at same
    split at same
    · have product : fraction.num = mantissa * (2 ^ exponent.toNat : Nat) := by exact_mod_cast same
      rw [product, Int.natAbs_mul, Int.natAbs_natCast]
      exact isWhole_mul_pow small _
    · have scale : ((2 ^ (-exponent).toNat : Nat) : Rat) ≠ 0 := by simp
      have cleared : fraction.num * (2 ^ (-exponent).toNat : Nat) = mantissa := by
        have quotient : (fraction.num : Rat) * ((2 ^ (-exponent).toNat : Nat) : Rat) = mantissa := by
          rw [same, Nat.pow_eq, mul_assoc, one_div, inv_mul_cancel₀ scale, mul_one]
        exact_mod_cast quotient
      rw [← cleared, Int.natAbs_mul, Int.natAbs_natCast] at small
      exact .inl (Nat.lt_of_le_of_lt (Nat.le_mul_of_pos_right _ (Nat.two_pow_pos _)) small)

end BuildPipeline
