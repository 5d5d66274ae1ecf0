import BuildPipeline.Text.Surrogate

/-! Compact JSON text. A string escapes the quote, the backslash, the controls
below U+0020 and surrogates without a partner; all else stands for itself. -/

namespace BuildPipeline.Json

def hexDigit (value : Nat) : CodeUnit :=
  if value < 10 then (0x30 + value).toUInt16 else (0x61 + (value - 10)).toUInt16

/-- Lower-case hexadecimal, the last `width` digits. -/
def hexDigits : Nat → Nat → Text
  | 0, _ => []
  | width + 1, value => hexDigits width (value / 16) ++ [hexDigit (value % 16)]

/-- The escape by number of a code unit. -/
def numericEscape (code : Nat) : Text :=
  "\\u" ++ hexDigits 4 code

/-- The escape of a character code, for codes that need one. -/
def escape? (code : Nat) : Option Text :=
  if code = 0x22 then some "\\\""
  else if code = 0x5C then some "\\\\"
  else if code = 0x08 then some "\\b"
  else if code = 0x09 then some "\\t"
  else if code = 0x0A then some "\\n"
  else if code = 0x0C then some "\\f"
  else if code = 0x0D then some "\\r"
  else if code < 0x20 then some (numericEscape code)
  else none

def escapeSymbol : Symbol → Text
  | .character code => (escape? code).getD (unitsOfCode code)
  | .unpaired unit => numericEscape unit.toNat

def quote (text : Text) : Text :=
  "\"" ++ text.symbols.flatMap escapeSymbol ++ "\""

def boolean (value : Bool) : Text :=
  if value then "true" else "false"

def list (items : List Text) : Text :=
  "[" ++ Text.join "," items ++ "]"

def member (key : Text) (value : Text) : Text :=
  quote key ++ ":" ++ value

def object (members : List (Text × Text)) : Text :=
  "\x7b" ++ Text.join "," (members.map fun entry => member entry.1 entry.2) ++ "\x7d"

end BuildPipeline.Json
