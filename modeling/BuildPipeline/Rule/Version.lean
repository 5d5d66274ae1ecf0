import BuildPipeline.Text.Blank
import BuildPipeline.Number.Binary64

/-! Dotted versions and the ranges that rules ask for. Components compare one by
one as doubles, and a missing component is zero. -/

namespace BuildPipeline

/-- Leading components; what follows the last digit is ignored. -/
abbrev Version := List Nat

namespace Version

/-- Everything past the largest double counts as 2^1024. -/
def component (digits : Text) : Nat :=
  min (Binary64.roundNat (digitsValue digits)) (Nat.pow 2 1024)

/-- Runs of digits joined by dots, as many as there are; the count bounds them. -/
def readComponents : Nat → Text → Version
  | 0, _ => []
  | count + 1, text =>
    let digits := text.takeWhile isDigit
    if digits.isEmpty then []
    else component digits ::
      match text.dropWhile isDigit with
      | [] => []
      | separator :: rest => if separator = '.' then readComponents count rest else []

/-- Present for a text that starts with a digit. -/
def parse? (text : Text) : Option Version :=
  match readComponents text.length text with
  | [] => none
  | components => some components

def part (version : Version) (index : Nat) : Nat :=
  version.getD index 0

/-- The first component that differs decides. -/
def compare (left right : Version) : Ordering :=
  ((List.range (max left.length right.length)).findSome? fun index =>
    if left.part index < right.part index then some .lt
    else if right.part index < left.part index then some .gt
    else none).getD .eq

def agree (count : Nat) (left right : Version) : Bool :=
  (List.range count).all fun index => left.part index == right.part index

/-- A caret fixes everything up to the left-most component that is not zero. -/
def caretLength (bound : Version) : Nat :=
  match bound.findIdx? (· ≠ 0) with
  | some pivot => pivot + 1
  | none => bound.length

/-- A tilde fixes two components, or all but the last of a longer bound. -/
def tildeLength (bound : Version) : Nat :=
  if bound.length ≤ 2 then bound.length else bound.length - 1

end Version

inductive RangeOperator
  | caret
  | tilde
  | atLeast
  | above
  | atMost
  | below
  | exactly
deriving DecidableEq

namespace RangeOperator

/-- How the operators are written. Of two that fit, the longer comes first. -/
def signs : List (Text × RangeOperator) :=
  [("^", .caret), ("~", .tilde), (">=", .atLeast), (">", .above), ("<=", .atMost), ("<", .below),
   ("=", .exactly)]

/-- The operator in front of a bound; none means the bound itself. -/
def split (range : Text) : RangeOperator × Text :=
  match signs.find? fun sign => sign.1.isPrefixOf range with
  | some (sign, operator) => (operator, range.drop sign.length)
  | none => (.exactly, range)

def admits (operator : RangeOperator) (version bound : Version) : Bool :=
  match operator with
  | .caret => version.compare bound ≠ .lt && Version.agree bound.caretLength version bound
  | .tilde => version.compare bound ≠ .lt && Version.agree bound.tildeLength version bound
  | .atLeast => version.compare bound ≠ .lt
  | .above => version.compare bound = .gt
  | .atMost => version.compare bound ≠ .gt
  | .below => version.compare bound = .lt
  | .exactly => version.compare bound = .eq

end RangeOperator

/-- A star admits everything; a version without components only equals its own text. -/
def satisfiesRange (version range : Text) : Bool :=
  let trimmed := range.trim
  if trimmed = "*" then true
  else
    match Version.parse? version with
    | none => version = trimmed
    | some components =>
      let (operator, bound) := RangeOperator.split trimmed
      if bound.any isLineEnd then false
      else
        match Version.parse? bound with
        | none => false
        | some bound => operator.admits components bound

end BuildPipeline
