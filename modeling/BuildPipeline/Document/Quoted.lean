import BuildPipeline.Text.Basic
import BuildPipeline.Json.Quoted

/-! Quoted scalars. Double quotes can hold anything; a long text breaks its lines
at newlines, which then take an empty line to survive folding. -/

namespace BuildPipeline.Document

def spaces (count : Nat) : Text :=
  List.replicate count .space

/-- Controls are escaped by a letter where there is one, else by two digits. -/
def controlEscape (code : Nat) : Text :=
  if code = 0x00 then "\\0"
  else if code = 0x07 then "\\a"
  else if code = 0x0B then "\\v"
  else if code = 0x1B then "\\e"
  else "\\x" ++ Json.hexDigits 2 code

def isShortEscape (code : Nat) : Bool :=
  code ∈ [0x22, 0x5C, 0x08, 0x09, 0x0A, 0x0C, 0x0D]

def escapeSymbol : Symbol → Text
  | .unpaired unit => Json.numericEscape unit.toNat
  | .character code =>
    if isShortEscape code then Json.escapeSymbol (.character code)
    else if code < 0x20 then controlEscape code
    else unitsOfCode code

def newline : Symbol := .character 0x0A

def space : Symbol := .character 0x20

/-- Where newlines inside double quotes may break the line. -/
structure QuotedStyle where
  breaks : Bool
  indent : Nat

def doubleQuotedBody (style : QuotedStyle) (content : List Symbol) : Text :=
  match content with
  | [] => []
  | symbol :: rest =>
    if symbol = newline then
      if rest.isEmpty || !style.breaks then "\\n" ++ doubleQuotedBody style rest
      else
        let following := rest.takeWhile (· = newline)
        let swallowed := if following.length = rest.length then following.length - 1 else following.length
        let remaining := rest.drop swallowed
        let guarded : Text := if remaining.head? = some space then "\\" else []
        List.replicate (2 + swallowed) .newline ++ spaces style.indent ++ guarded ++
          doubleQuotedBody style remaining
    else if symbol = space && rest.head? = some newline then
      "\\ " ++ doubleQuotedBody style rest
    else escapeSymbol symbol ++ doubleQuotedBody style rest
termination_by content.length
decreasing_by
  all_goals simp only [List.length_cons, List.length_drop]
  all_goals omega

/-- Texts of fewer than forty units keep their newlines as escapes, and keys always do. -/
def doubleQuoted (isKey : Bool) (indent : Nat) (text : Text) : Text :=
  let style : QuotedStyle := ⟨!isKey && 40 ≤ (Json.quote text).length, indent⟩
  "\"" ++ doubleQuotedBody style text.symbols ++ "\""

/-- Single quotes serve a text on one line with double quotes in it and no single ones. -/
def quoted (isKey : Bool) (indent : Nat) (text : Text) : Text :=
  if text.contains '"' && !text.contains '\'' && !text.contains .newline then "'" ++ text ++ "'"
  else doubleQuoted isKey indent text

end BuildPipeline.Document
