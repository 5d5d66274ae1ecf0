import BuildPipeline.Number.Basic
import BuildPipeline.Text.Basic

/-! The text of a number: the fewest decimal digits that read back as the same
double, and of those the nearest. -/

namespace BuildPipeline.Number

/-- The doubles' neighbours bound the values that round to `value`; the ends
belong to them when the significand is even. -/
structure RoundingInterval where
  low : Rat
  high : Rat
  closed : Bool

def RoundingInterval.of (value : Rat) : RoundingInterval :=
  let exponent := Binary64.unitExponent value
  let unit := Binary64.powerOfTwo exponent
  let significand := (value / unit).num.toNat
  let below := if significand = Nat.pow 2 52 && -1074 < exponent then unit / 4 else unit / 2
  ⟨value - below, value + unit / 2, significand % 2 == 0⟩

def RoundingInterval.contains (interval : RoundingInterval) (candidate : Rat) : Bool :=
  (interval.low < candidate && candidate < interval.high) ||
    (interval.closed && (candidate == interval.low || candidate == interval.high))

def digitCount (value : Nat) : Nat :=
  if value = 0 then 0 else (Nat.toDigits 10 value).length

def powerOfTen (exponent : Int) : Rat :=
  if 0 ≤ exponent then (Nat.pow 10 exponent.toNat : Rat) else 1 / (Nat.pow 10 (-exponent).toNat : Rat)

/-- The `point` for which a positive value lies in `[10 ^ (point - 1), 10 ^ point)`. -/
def decimalPoint (value : Rat) : Int :=
  if 1 ≤ value then digitCount value.floor.toNat
  else 1 - (digitCount ((1 / value).ceil.toNat - 1) : Int)

/-- The nearer of the two neighbours with `count` digits that reads back. -/
def nearestDigits? (value : Rat) (interval : RoundingInterval) (point : Int) (count : Nat) : Option Nat :=
  let unit := powerOfTen (point - count)
  let lower := (value / unit).floor.toNat
  let below : Rat := lower * unit
  let above : Rat := (lower + 1 : Nat) * unit
  match interval.contains below, interval.contains above with
  | false, false => none
  | true, false => some lower
  | false, true => some (lower + 1)
  | true, true =>
    if value - below < above - value then some lower
    else if above - value < value - below then some (lower + 1)
    else if lower % 2 = 0 then some lower else some (lower + 1)

/-- Digits and decimal point of the shortest text of a positive double. Seventeen
digits always read back. -/
def shortestDigits (value : Rat) : Text × Int :=
  let interval := RoundingInterval.of value
  let point := decimalPoint value
  let found := (List.range 17).findSome? fun fewer =>
    (nearestDigits? value interval point (fewer + 1)).map (·, fewer + 1)
  match found with
  | none => ("0", 1)
  | some (digits, count) =>
    if digits = Nat.pow 10 count then ("1", point + 1) else (decimal digits, point)

def zeros (count : Int) : Text :=
  List.replicate count.toNat 0x30

/-- Positional from 1e-6 up to 1e21, else one digit before the point and a signed
exponent. -/
def placePoint (digits : Text) (point : Int) : Text :=
  if digits.length ≤ point ∧ point ≤ 21 then digits ++ zeros (point - digits.length)
  else if 0 < point ∧ point ≤ 21 then digits.take point.toNat ++ "." ++ digits.drop point.toNat
  else if -6 < point ∧ point ≤ 0 then "0." ++ zeros (-point) ++ digits
  else
    let exponent := point - 1
    let fraction : Text := if digits.length ≤ 1 then [] else "." ++ digits.drop 1
    let sign : Text := if exponent < 0 then "-" else "+"
    digits.take 1 ++ fraction ++ "e" ++ sign ++ decimal exponent.natAbs

def positiveText (value : Rat) : Text :=
  let (digits, point) := shortestDigits value
  placePoint digits point

def text : Number → Text
  | .nan => "NaN"
  | .infinity => "Infinity"
  | .negativeInfinity => "-Infinity"
  | .finite value =>
    if value = 0 then "0"
    else if 0 < value then positiveText value
    else "-" ++ positiveText (-value)

end BuildPipeline.Number

namespace BuildPipeline

/-- The text of a whole number that is a double, such as a stage. -/
def numeral (value : Nat) : Text :=
  Number.text (.finite value)

end BuildPipeline
