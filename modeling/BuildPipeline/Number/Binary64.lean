/-! Rounding to double precision in exact arithmetic: 53 significant bits, the
least exponent -1074, and no finite value from 2^1024 on. -/

namespace BuildPipeline.Binary64

/-- The nearest whole number to a quotient; halves go to the even neighbour. -/
def roundHalfEven (numerator denominator : Nat) : Nat :=
  let quotient := numerator / denominator
  let doubled := 2 * (numerator % denominator)
  if doubled < denominator then quotient
  else if denominator < doubled then quotient + 1
  else if quotient % 2 = 0 then quotient else quotient + 1

/-- The nearest whole number of 53 significant bits. -/
def roundNat (value : Nat) : Nat :=
  if value < Nat.pow 2 53 then value
  else
    let unit := Nat.pow 2 (value.log2 - 52)
    roundHalfEven value unit * unit

def powerOfTwo (exponent : Int) : Rat :=
  if 0 ≤ exponent then (Nat.pow 2 exponent.toNat : Rat) else 1 / (Nat.pow 2 (-exponent).toNat : Rat)

/-- The exponent of the last binary place kept for a positive value. -/
def unitExponent (value : Rat) : Int :=
  let estimate : Int := (value.num.toNat.log2 : Int) - (value.den.log2 : Int)
  let leading := if powerOfTwo estimate ≤ value then estimate else estimate - 1
  max (leading - 52) (-1074)

/-- The nearest double to a positive value, unless that is past the largest one. -/
def roundPositive (value : Rat) : Option Rat :=
  let unit := powerOfTwo (unitExponent value)
  let scaled := value / unit
  let rounded : Rat := (roundHalfEven scaled.num.toNat scaled.den : Rat) * unit
  if rounded < powerOfTwo 1024 then some rounded else none

end BuildPipeline.Binary64
