import BuildPipeline.Yaml.Plain

/-! Plain scalars by the rules of YAML 1.1, which knows more words for true and
false, underscores between digits, numbers in base sixty, and points in time. -/

namespace BuildPipeline.Yaml

def earlyTrueTexts : List Text :=
  ["Y", "y", "Yes", "yes", "YES", "True", "true", "TRUE", "On", "on", "ON"]

def earlyFalseTexts : List Text :=
  ["N", "n", "No", "no", "NO", "False", "false", "FALSE", "Off", "off", "OFF"]

def isBinaryDigit (unit : CodeUnit) : Bool :=
  unit = '0' || unit = '1'

/-- Underscores may stand among digits. -/
def isSpread (test : CodeUnit → Bool) (unit : CodeUnit) : Bool :=
  test unit || unit = '_'

def dropUnderscores (text : Text) : Text :=
  text.filter fun (unit : CodeUnit) => unit ≠ '_'

def startsWithDigit (text : Text) : Bool :=
  (text.head?.map isDigit).getD false

/-- Decimal digits, the first of which is no underscore. -/
def isSpreadDecimal (text : Text) : Bool :=
  startsWithDigit text && text.all (isSpread isDigit)

/-- Underscores alone are not a number. -/
def spreadValue (base : Nat) (text : Text) : Number :=
  let digits := dropUnderscores text
  if digits.isEmpty then .nan else .ofNat (valueInBase base digits)

def spreadDigits? (lead : Text) (base : Nat) (test : CodeUnit → Bool) (text : Text) : Option Number :=
  let digits := text.drop lead.length
  if lead.isPrefixOf text && areDigits (isSpread test) digits then some (spreadValue base digits) else none

/-- A leading zero announces base eight. -/
def earlyInteger? (text : Text) : Option Number :=
  let (negative, rest) := splitSign text
  let decimal? := if isSpreadDecimal rest then some (spreadValue 10 rest) else none
  let found :=
    (spreadDigits? "0b" 2 isBinaryDigit rest).or <|
      (spreadDigits? "0" 8 isOctalDigit rest).or <|
        decimal?.or (spreadDigits? "0x" 16 isHexDigit rest)
  found.map (signed negative)

/-- The digits before and behind a point, where both may be missing. -/
def spreadParts? (text : Text) : Option (Text × Text) :=
  let whole := text.takeWhile fun (unit : CodeUnit) => unit ≠ '.'
  let fraction := (text.drop whole.length).drop 1
  if (whole.isEmpty || isSpreadDecimal whole) && fraction.all (isSpread isDigit) then
    some (dropUnderscores whole, dropUnderscores fraction)
  else none

def spreadDecimal (parts : Text × Text) (exponent : Int) : Number :=
  if parts.1.isEmpty && parts.2.isEmpty then .nan else decimalNumber parts exponent

/-- A decimal with a point, an exponent or both, or one of the special values. -/
def earlyFloat? (text : Text) : Option Number :=
  let (negative, rest) := splitSign text
  let mantissa := rest.takeWhile (!isExponentMark ·)
  let found :=
    match rest.drop mantissa.length with
    | [] => if mantissa.contains '.' then (spreadParts? mantissa).map (spreadDecimal · 0) else none
    | _ :: exponent => do
      let parts ← spreadParts? mantissa
      let exponent ← exponent? exponent
      return spreadDecimal parts exponent
  (special? text).or (found.map (signed negative))

/-- One or two digits that count less than sixty. -/
def isSixtieth (text : Text) : Bool :=
  match text with
  | [digit] => isDigit digit
  | [first, second] => '0' ≤ first && first ≤ '5' && isDigit second
  | _ => false

def sixtyfold (parts : List Text) : Nat :=
  parts.foldl (fun value part => 60 * value + digitsValue (dropUnderscores part)) 0

/-- Whole numbers in base sixty, with colons between the places. -/
def sixtyInteger? (text : Text) : Option Number :=
  let (negative, rest) := splitSign text
  match Text.split ':' rest with
  | first :: second :: places =>
    if isSpreadDecimal first && (second :: places).all isSixtieth then
      some (signed negative (.ofNat (sixtyfold (first :: second :: places))))
    else none
  | _ => none

/-- Base sixty with a point behind the last place. -/
def sixtyFloat? (text : Text) : Option Number :=
  let (negative, rest) := splitSign text
  let whole := rest.takeWhile fun (unit : CodeUnit) => unit ≠ '.'
  let fraction := rest.drop whole.length
  if fraction.isEmpty || !(fraction.drop 1).all (isSpread isDigit) then none
  else
    match Text.split ':' whole with
    | first :: second :: places =>
      if isSpreadDecimal first && (second :: places).all isSixtieth then
        let digits := dropUnderscores (fraction.drop 1)
        let mantissa := sixtyfold (first :: second :: places) * Nat.pow 10 digits.length + digitsValue digits
        some (signed negative (.ofDecimal mantissa (-digits.length)))
      else none
    | _ => none

/-- What follows a run of digits that is neither too short nor too long. -/
def dropDigits? (least most : Nat) (text : Text) : Option Text :=
  let digits := text.takeWhile isDigit
  if least ≤ digits.length && digits.length ≤ most then some (text.drop digits.length) else none

def dropUnit? (unit : CodeUnit) (text : Text) : Option Text :=
  if text.head? = some unit then some (text.drop 1) else none

/-- What follows a time of day with an optional fraction of a second. -/
def dropTime? (text : Text) : Option Text := do
  let rest ← dropUnit? ':' (← dropDigits? 1 2 text)
  let rest ← dropDigits? 1 2 (← dropUnit? ':' (← dropDigits? 1 2 rest))
  match dropUnit? '.' rest with
  | some fraction => if startsWithDigit fraction then some (fraction.dropWhile isDigit) else none
  | none => some rest

def isZone (text : Text) : Bool :=
  match text with
  | [] => false
  | first :: rest =>
    if first = 'Z' then rest.isEmpty
    else if first = '+' || first = '-' then
      let hours := rest.takeWhile isDigit
      let minutes := rest.drop hours.length
      let isHours := match hours with
        | [_] => true
        | [first, _] => first ≤ '2'
        | _ => false
      let isMinutes := match minutes with
        | [] => true
        | colon :: digits => colon = ':' && digits.length = 2 && digits.all isDigit
      isHours && isMinutes
    else false

/-- A date, or a date and a time with an optional zone. -/
def isTimestamp (text : Text) : Bool :=
  let date? := do
    let rest ← dropUnit? '-' (← dropDigits? 4 4 text)
    dropDigits? 1 2 (← dropUnit? '-' (← dropDigits? 1 2 rest))
  match date? with
  | none => false
  | some [] => true
  | some (unit :: rest) =>
    let time := if unit = 't' || unit = 'T' then rest else (unit :: rest).dropWhile isSpaceOrTab
    if unit = 't' || unit = 'T' || isSpaceOrTab unit then
      match dropTime? time with
      | some behind => behind.isEmpty || isZone (behind.dropWhile isSpaceOrTab)
      | none => false
    else false

/-- The key that stands for merging. -/
def mergeText : Text := "<<"

def earlyNumber? (text : Text) : Option Number :=
  (earlyInteger? text).or <| (earlyFloat? text).or <| (sixtyInteger? text).or (sixtyFloat? text)

def resolveEarly (isKey : Bool) (text : Text) : Atom :=
  if text ∈ nullTexts then .null
  else if text ∈ earlyTrueTexts then .boolean true
  else if text ∈ earlyFalseTexts then .boolean false
  else
    match earlyNumber? text with
    | some value => .number value
    | none =>
      if isKey && text = mergeText then .merge
      else if isTimestamp text then .instant
      else .text text

end BuildPipeline.Yaml
