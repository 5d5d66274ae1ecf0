import BuildPipeline.Number.Binary64

/-! Numbers as configuration files hold them: doubles, with a finite value kept
as the exact fraction it stands for. Both zeros are one value. -/

namespace BuildPipeline

inductive Number
  | nan
  | infinity
  | negativeInfinity
  | finite (value : Rat)
deriving DecidableEq

namespace Number

/-- The nearest double to a fraction. -/
def ofRat (value : Rat) : Number :=
  if value = 0 then .finite 0
  else if 0 < value then
    match Binary64.roundPositive value with
    | some rounded => .finite rounded
    | none => .infinity
  else
    match Binary64.roundPositive (-value) with
    | some rounded => .finite (-rounded)
    | none => .negativeInfinity

def ofNat (value : Nat) : Number :=
  let rounded := Binary64.roundNat value
  if rounded < Nat.pow 2 1024 then .finite rounded else .infinity

def ofInt (value : Int) : Number :=
  ofRat value

def neg : Number → Number
  | .nan => .nan
  | .infinity => .negativeInfinity
  | .negativeInfinity => .infinity
  | .finite value => .finite (-value)

/-- The double nearest to `mantissa * 10 ^ exponent`. Exponents far outside the
range of doubles are settled by the number of digits alone. -/
def ofDecimal (mantissa : Nat) (exponent : Int) : Number :=
  if mantissa = 0 then .finite 0
  else
    let digits : Int := (Nat.toDigits 10 mantissa).length
    if 400 < digits + exponent then .infinity
    else if digits + exponent < -400 then .finite 0
    else if 0 ≤ exponent then ofRat ((mantissa * Nat.pow 10 exponent.toNat : Nat) : Rat)
    else ofRat ((mantissa : Rat) / (Nat.pow 10 (-exponent).toNat : Rat))

def isInteger : Number → Bool
  | .finite value => value.den == 1
  | _ => false

/-- Present for whole numbers from zero on. -/
def natural? : Number → Option Nat
  | .finite value => if value.den = 1 ∧ 0 ≤ value then some value.num.toNat else none
  | _ => none

/-- No number is below or above `nan`. -/
def lt : Number → Number → Bool
  | .nan, _ | _, .nan => false
  | .finite left, .finite right => left < right
  | .negativeInfinity, right => right != .negativeInfinity
  | .finite _, right => right == .infinity
  | .infinity, _ => false

end Number

end BuildPipeline
