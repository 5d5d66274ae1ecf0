import BuildPipeline.Yaml.Fault
import BuildPipeline.Yaml.Lexeme
import BuildPipeline.Yaml.Plain

/-! The text of a flow scalar: its lines are folded into one, and between double
quotes a backslash stands for what cannot be written. -/

namespace BuildPipeline.Yaml

def trimBlanks (text : Text) : Text :=
  Text.dropEndWhile isSpaceOrTab (text.dropWhile isSpaceOrTab)

/-- Lines without their line breaks. The last one keeps a carriage return. -/
def bareLines : Text → List Text
  | [] => [[]]
  | unit :: rest =>
    if unit = .newline then [] :: bareLines rest
    else if unit = '\r' && rest.head? = some .newline then bareLines rest
    else match bareLines rest with
      | [] => [[unit]]
      | line :: lines => (unit :: line) :: lines

/-- The inner lines in order; a single line break becomes a space, and each empty
line a line break. -/
def foldInner (separator : CodeUnit) : List Text → Text × CodeUnit
  | [] => ([], separator)
  | line :: lines =>
    if line.isEmpty then
      if separator = .newline then
        let (folded, last) := foldInner .newline lines
        (.newline :: folded, last)
      else foldInner .newline lines
    else
      let (folded, last) := foldInner .space lines
      (separator :: line ++ folded, last)

/-- Blanks around line breaks are dropped. A text of one line stays as it is. -/
def foldLines (text : Text) : Text :=
  match bareLines text with
  | first :: second :: lines =>
    let inner := ((second :: lines).dropLast).map trimBlanks
    let (folded, separator) := foldInner .space inner
    let last := ((second :: lines).getLast?.getD []).dropWhile isSpaceOrTab
    Text.dropEndWhile isSpaceOrTab first ++ folded ++ separator :: last
  | _ => text

/-- What may not open a plain scalar: a tab, a comma, and marks kept for other use. -/
def isBadStart (unit : CodeUnit) : Bool :=
  ("\t,%|>@\x60" : Text).contains unit

def plainText (source : Text) : Except Fault Text :=
  if (source.head?.map isBadStart).getD false then .error .badScalar else .ok (foldLines source)

/-- The scalar ends in its quote, which is not the one that opens it. -/
def isClosedBy (quote : CodeUnit) (source : Text) : Bool :=
  source.getLast? = some quote && 1 < source.length

def joinQuotePairs : Text → Text
  | first :: second :: rest =>
    if first = '\'' && second = '\'' then first :: joinQuotePairs rest
    else first :: joinQuotePairs (second :: rest)
  | rest => rest

def singleQuotedText (source : Text) : Except Fault Text :=
  if isClosedBy '\'' source then .ok (joinQuotePairs (foldLines (source.drop 1).dropLast))
  else .error .badScalar

/-- Escapes of one unit, and what they stand for. -/
def letterEscapes : List (CodeUnit × CodeUnit) :=
  [('0', 0x00), ('a', 0x07), ('b', 0x08), ('e', 0x1B), ('f', 0x0C), ('n', 0x0A), ('r', 0x0D), ('t', 0x09),
   ('v', 0x0B), ('N', 0x85), ('_', 0xA0), ('L', 0x2028), ('P', 0x2029), (' ', 0x20), ('"', 0x22), ('/', 0x2F),
   ('\\', 0x5C), ('\t', 0x09)]

/-- How many hexadecimal digits follow the letter of an escape. -/
def escapeWidth? (unit : CodeUnit) : Option Nat :=
  if unit = 'x' then some 2 else if unit = 'u' then some 4 else if unit = 'U' then some 8 else none

/-- The character with this code in hexadecimal digits. -/
def escapedUnits? (width : Nat) (digits : Text) : Option Text :=
  let code := valueInBase 16 digits
  if digits.length = width && digits.all isHexDigit && code ≤ 0x10FFFF then some (unitsOfCode code) else none

/-- Blanks and line breaks behind a line break: how many more line breaks there are,
and what follows. -/
def skipBreaks : Text → Nat × Text
  | [] => (0, [])
  | unit :: rest =>
    if unit = .newline then
      let (count, rest) := skipBreaks rest
      (count + 1, rest)
    else if isSpaceOrTab unit || (unit = '\r' && rest.head? = some .newline) then skipBreaks rest
    else (0, unit :: rest)

/-- Reads up to the last unit, which is the closing quote. The fuel is the number of
units. -/
def unescape : Nat → Text → Except Fault Text
  | 0, _ => .ok []
  | _, [] => .ok []
  | _, [_] => .ok []
  | fuel + 1, unit :: rest =>
    if unit = '\\' then
      let behind := rest.drop 1
      match rest.head? with
      | none => .ok []
      | some letter =>
        match letterEscapes.lookup letter, escapeWidth? letter with
        | some escaped, _ => (unescape fuel behind).map (escaped :: ·)
        | none, some width =>
          match escapedUnits? width (behind.take width) with
          | some escaped => (unescape fuel (behind.drop width)).map (escaped ++ ·)
          | none => .error .badEscape
        | none, none =>
          if startsLineBreak rest then
            let line := if letter = .newline then behind else behind.drop 1
            unescape fuel (line.dropWhile isSpaceOrTab)
          else .error .badEscape
    else if unit = .newline then
      let (count, rest) := skipBreaks rest
      let folded : Text := if count = 0 then [.space] else List.replicate count .newline
      (unescape fuel rest).map (folded ++ ·)
    else if startsLineBreak (unit :: rest) then unescape fuel rest
    else if isSpaceOrTab unit then
      let blanks := unit :: rest.takeWhile isSpaceOrTab
      let behind := rest.dropWhile isSpaceOrTab
      if startsLineBreak behind then unescape fuel behind
      else (unescape fuel behind).map (blanks ++ ·)
    else (unescape fuel rest).map (unit :: ·)

def doubleQuotedText (source : Text) : Except Fault Text :=
  if isClosedBy '"' source then unescape source.length (source.drop 1) else .error .badScalar

end BuildPipeline.Yaml
