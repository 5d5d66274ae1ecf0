import BuildPipeline.Yaml.Lexeme

/-! How far a scalar, a tag or an anchor reaches in the text that it starts. -/

namespace BuildPipeline.Yaml

def anchorLength (text : Text) : Nat :=
  (text.takeWhile isAnchorUnit).length

def isTagUnit (unit : CodeUnit) : Bool :=
  isAlphanumeric unit || ("-#;/?:@&=+$_.!~*'()" : Text).contains unit

def isTagHexDigit (unit : Option CodeUnit) : Bool :=
  match unit with
  | none => false
  | some unit => isDigit unit || ('a' ≤ unit && unit ≤ 'f') || ('A' ≤ unit && unit ≤ 'F')

/-- The units of a tag behind its exclamation mark; a percent sign takes two digits. -/
def shortTagLength : Nat → Text → Nat
  | 0, _ => 0
  | _, [] => 0
  | fuel + 1, unit :: rest =>
    if isTagUnit unit then shortTagLength fuel rest + 1
    else if unit = '%' && isTagHexDigit rest[0]? && isTagHexDigit rest[1]? then
      shortTagLength fuel (rest.drop 2) + 3
    else 0

/-- The units of a tag in angle brackets, with the closing one if it is there. -/
def verbatimTagLength (text : Text) : Nat :=
  let name := text.takeWhile fun unit => !endsWord (some unit) && unit ≠ '>'
  if text[name.length]? = some (CodeUnit.ofChar '>') then name.length + 1 else name.length

def tagLength (text : Text) : Nat :=
  match text.drop 1 with
  | [] => text.length
  | first :: rest =>
    if first = '<' then 2 + verbatimTagLength rest
    else 1 + shortTagLength text.length (first :: rest)

/-- Two units that stand for one inside quotes: after a backslash between double
quotes, and a single quote written twice. -/
def isQuotedPair (quote first second : CodeUnit) : Bool :=
  if quote = '"' then first = '\\' else first = quote && second = quote

/-- The units up to the closing quote, if there is one. -/
def closingQuote? (quote : CodeUnit) : Text → Option Nat
  | [] => none
  | [unit] => if unit = quote then some 0 else none
  | first :: second :: rest =>
    if isQuotedPair quote first second then (closingQuote? quote rest).map (· + 2)
    else if first = quote then some 0
    else (closingQuote? quote (second :: rest)).map (· + 1)

/-- The units up to the first line break that the scalar does not continue behind,
and at most `limit`. -/
def heldLength (indentation : Nat) : Nat → Text → Nat
  | 0, _ => 0
  | _, [] => 0
  | limit + 1, unit :: rest =>
    let broken := (unit = .newline && !continuesScalar indentation rest) ||
      (unit = '\r' && startsLineBreak (unit :: rest) && !continuesScalar indentation (rest.drop 1))
    if broken then 0 else heldLength indentation limit rest + 1

/-- A quoted scalar that is not closed reaches to the end of the text, and one with
a line that lacks indentation to the end of the line before. -/
def quotedLength (indentation : Nat) : Text → Nat
  | [] => 0
  | quote :: content =>
    match closingQuote? quote content with
    | none => content.length + 1
    | some length =>
      let held := heldLength indentation length content
      if held < length then held + 1 else length + 2

/-- What ends a plain scalar when it follows a blank, and in brackets anywhere. -/
def endsPlain (inFlow : Bool) (next : Option CodeUnit) : Bool :=
  match next with
  | none => false
  | some unit => unit = '#' || (inFlow && isFlowUnit unit)

/-- A colon ends a plain scalar before a blank, and in brackets before a bracket too. -/
def endsKey (inFlow : Bool) (next : Option CodeUnit) : Bool :=
  endsWord next || match next with
    | none => false
    | some unit => inFlow && isFlowUnit unit

/-- The units up to the last one that is not blank. So many have been read, of
which `last` belong to the scalar in any case. -/
def plainLength (inFlow : Bool) (indentation : Nat) (read last : Nat) : Text → Nat
  | [] => last
  | unit :: rest =>
    let next := rest.head?
    if unit = ':' then
      if endsKey inFlow next then last else plainLength inFlow indentation (read + 1) (read + 1) rest
    else if unit = '\r' && next = some .newline then
      plainLength inFlow indentation (read + 1) last rest
    else if endsWord (some unit) then
      let last := if unit = '\r' then read + 1 else last
      if endsPlain inFlow next || (unit = .newline && !continuesScalar indentation rest) then last
      else plainLength inFlow indentation (read + 1) last rest
    else if inFlow && isFlowUnit unit then last
    else plainLength inFlow indentation (read + 1) (read + 1) rest

end BuildPipeline.Yaml
