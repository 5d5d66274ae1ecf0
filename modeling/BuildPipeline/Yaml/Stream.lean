import BuildPipeline.Yaml.Composition
import BuildPipeline.Yaml.Frame

/-! The one document of a stream, read as its directives say. -/

namespace BuildPipeline.Yaml

/-- The words between blanks. -/
def words : Text → List Text
  | [] => []
  | unit :: rest =>
    if isSpaceOrTab unit then words rest
    else
      match rest.head?, words rest with
      | some next, word :: others => if isSpaceOrTab next then [unit] :: word :: others else (unit :: word) :: others
      | _, others => [unit] :: others

/-- Digits, a point and digits. -/
def isVersionNumber (text : Text) : Bool :=
  let major := text.takeWhile isDigit
  match text.drop major.length with
  | point :: minor => !major.isEmpty && point = '.' && areDigits isDigit minor
  | [] => false

/-- What a directive says about the document behind it. Unknown directives say nothing. -/
def Dialect.addDirective (dialect : Dialect) (text : Text) : Except Fault Dialect :=
  match words text.trim with
  | [] => .ok dialect
  | name :: values =>
    if name = "%TAG" then
      match values with
      | [handle, start] => .ok { dialect with handles := assignEntry dialect.handles handle start }
      | _ => .error .badDirective
    else if name = "%YAML" then
      match values with
      | [version] =>
        if version = "1.1" then .ok { dialect with isEarly := true }
        else if version = "1.2" then .ok { dialect with isEarly := false }
        else if isVersionNumber version then .ok dialect
        else .error .badDirective
      | _ => .error .badDirective
    else .ok dialect

/-- A document and the dialect it is written in. -/
structure Reading where
  dialect : Dialect
  root : Node

/-- Collections may be nested this deep. -/
def deepestNesting : Nat := 1250

/-- A document whose mark is required if directives come before it. A block
collection does not start on the line of the mark. -/
def readDocument (dialect : Dialect) (needsMark : Bool) (offset : Nat) (lead : List Mark)
    (value : Option Outline) (trailing : List Mark) : Except Fault Reading := do
  let preamble ← readPreamble
    { indicator := .documentStart, isFlow := false, following := .of value (some trailing), offset, indent := 0
      atLineStart := true } lead
  let isMarked := preamble.indicator.isSome
  if needsMark && !isMarked then .error .missingMark
  else if isMarked && !preamble.hasNewline && holds Outline.isBlockCollection value then .error .misplaced
  else if !trailing.all Mark.isFiller then .error .strayText
  else
    let root ← (compose dialect deepestNesting).orEmpty dialect { isRoot := true } value lead preamble
    return { dialect, root := root.node }

/-- How far a stream has been read. -/
structure StreamProgress where
  dialect : Dialect := {}
  /-- Directives have been read that no document follows so far. -/
  awaitsDocument : Bool := false
  document : Option Reading := none

def StreamProgress.add (progress : StreamProgress) (part : Part) : Except Fault StreamProgress :=
  match part with
  | .directive text => do
    let dialect ← progress.dialect.addDirective text
    return { progress with dialect, awaitsDocument := true }
  | .document offset lead value trailing =>
    if progress.document.isSome then .error .severalDocuments
    else do
      let document ← readDocument progress.dialect progress.awaitsDocument offset lead value trailing
      return { progress with awaitsDocument := false, document := some document }
  | .ended trailing => do
    if progress.document.isNone then .error .strayText
    checkTrailing trailing
    return progress

/-- The document of a stream, unless there is none. -/
def readStream (parts : List Part) : Except Fault (Option Reading) := do
  let progress ← parts.foldlM StreamProgress.add {}
  if progress.document.isNone && progress.awaitsDocument then .error .missingMark
  else return progress.document

end BuildPipeline.Yaml
