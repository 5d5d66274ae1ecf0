import BuildPipeline.Text.Blank
import BuildPipeline.Yaml.Atom

/-! What a plain scalar stands for: null, a boolean or a number when it is
spelled as one, and otherwise its own text. -/

namespace BuildPipeline.Yaml

def isHexDigit (unit : CodeUnit) : Bool :=
  isDigit unit || ('a' ≤ unit && unit ≤ 'f') || ('A' ≤ unit && unit ≤ 'F')

def isOctalDigit (unit : CodeUnit) : Bool :=
  '0' ≤ unit && unit ≤ '7'

def digitValue (unit : CodeUnit) : Nat :=
  if isDigit unit then unit.toNat - 0x30
  else if 'a' ≤ unit then unit.toNat - 0x61 + 10
  else unit.toNat - 0x41 + 10

def valueInBase (base : Nat) (digits : Text) : Nat :=
  digits.foldl (fun value digit => base * value + digitValue digit) 0

def nullTexts : List Text := ["", "~", "null", "Null", "NULL"]

def trueTexts : List Text := ["true", "True", "TRUE"]

def falseTexts : List Text := ["false", "False", "FALSE"]

def infinityTexts : List Text := [".inf", ".Inf", ".INF"]

def nanTexts : List Text := [".nan", ".NaN", ".NAN"]

/-- Whether a minus stands in front, and what follows the sign. -/
def splitSign : Text → Bool × Text
  | [] => (false, [])
  | first :: rest =>
    if first = '-' then (true, rest) else if first = '+' then (false, rest) else (false, first :: rest)

def signed (negative : Bool) (value : Number) : Number :=
  if negative then value.neg else value

/-- One unit or more, all of which satisfy the test. -/
def areDigits (test : CodeUnit → Bool) (text : Text) : Bool :=
  !text.isEmpty && text.all test

/-- Digits behind an optional sign. -/
def signedDigits? (text : Text) : Option Number :=
  let (negative, digits) := splitSign text
  if areDigits isDigit digits then some (signed negative (.ofNat (digitsValue digits))) else none

/-- Digits of a base behind the two units that announce it. -/
def basedDigits? (lead : Text) (base : Nat) (test : CodeUnit → Bool) (text : Text) : Option Number :=
  let digits := text.drop lead.length
  if lead.isPrefixOf text && areDigits test digits then some (.ofNat (valueInBase base digits)) else none

/-- Decimal digits behind an optional sign, or digits of base eight or sixteen. -/
def integer? (text : Text) : Option Number :=
  (basedDigits? "0o" 8 isOctalDigit text).or <|
    (signedDigits? text).or (basedDigits? "0x" 16 isHexDigit text)

/-- The digits before and behind a point, if there is one, with a digit somewhere. -/
def decimalParts? (text : Text) : Option (Text × Text) :=
  let whole := text.takeWhile isDigit
  match text.dropWhile isDigit with
  | [] => if whole.isEmpty then none else some (whole, [])
  | point :: fraction =>
    if point = '.' && fraction.all isDigit && !(whole.isEmpty && fraction.isEmpty) then
      some (whole, fraction)
    else none

def decimalNumber (parts : Text × Text) (exponent : Int) : Number :=
  Number.ofDecimal (digitsValue (parts.1 ++ parts.2)) (exponent - parts.2.length)

def exponent? (text : Text) : Option Int :=
  let (negative, digits) := splitSign text
  if areDigits isDigit digits then
    let value : Int := digitsValue digits
    some (if negative then -value else value)
  else none

def isExponentMark (unit : CodeUnit) : Bool :=
  unit = 'e' || unit = 'E'

/-- A decimal with a point, an exponent or both. -/
def decimal? (text : Text) : Option Number :=
  let mantissa := text.takeWhile (!isExponentMark ·)
  match text.dropWhile (!isExponentMark ·) with
  | [] => if mantissa.contains '.' then (decimalParts? mantissa).map (decimalNumber · 0) else none
  | _ :: exponent => do
    let parts ← decimalParts? mantissa
    let exponent ← exponent? exponent
    return decimalNumber parts exponent

/-- Infinity behind an optional sign, or what is not a number. -/
def special? (text : Text) : Option Number :=
  let (negative, rest) := splitSign text
  if rest ∈ infinityTexts then some (signed negative .infinity)
  else if text ∈ nanTexts then some .nan
  else none

/-- A decimal that is not spelled as an integer, or one of the special values. -/
def float? (text : Text) : Option Number :=
  let (negative, rest) := splitSign text
  (special? text).or ((decimal? rest).map (signed negative))

def resolvePlain (text : Text) : Atom :=
  if text ∈ nullTexts then .null
  else if text ∈ trueTexts then .boolean true
  else if text ∈ falseTexts then .boolean false
  else
    match (integer? text).or (float? text) with
    | some value => .number value
    | none => .text text

/-- The spelling of something other than text. -/
def readsAsOther (text : Text) : Bool :=
  match resolvePlain text with
  | .text _ => false
  | _ => true

end BuildPipeline.Yaml
