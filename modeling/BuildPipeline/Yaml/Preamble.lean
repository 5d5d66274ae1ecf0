import BuildPipeline.Yaml.Fault
import BuildPipeline.Yaml.Outline

/-! The marks around nodes: what stands before a node, and what may stand behind
one on its line. -/

namespace BuildPipeline.Yaml

/-- What a preamble comes before, as far as that matters to it. -/
inductive Following
  | nothing
  /-- A blank, a line break, a comma or an empty scalar. -/
  | separated
  /-- A collection in brackets. -/
  | brackets
  | blockCollection
  | other
deriving DecidableEq

def Following.ofMark (mark : Mark) : Following :=
  if mark.kind = .blanks || mark.kind = .newline || mark.kind = .comma then .separated else .other

def Following.ofOutline : Outline → Following
  | .leaf mark _ => if mark.kind = .scalar && mark.text.isEmpty then .separated else .other
  | .block .. => .other
  | .flow .. => .brackets
  | .mapping .. => .blockCollection
  | .list .. => .blockCollection

/-- A node, or else the first of the marks behind the place where it would be. -/
def Following.of (node : Option Outline) (marks : Option (List Mark)) : Following :=
  match node with
  | some outline => .ofOutline outline
  | none => ((marks.bind List.head?).map Following.ofMark).getD .nothing

/-- Where a preamble stands. -/
structure PreamblePlace where
  /-- The kind of the mark that it may hold once. -/
  indicator : Kind
  isFlow : Bool
  following : Following
  offset : Nat
  /-- The indentation of the surroundings. -/
  indent : Nat
  atLineStart : Bool

/-- What was found before a node. -/
structure Preamble where
  indicator : Option Mark := none
  hasComma : Bool := false
  hasNewline : Bool := false
  hasComment : Bool := false
  anchor : Option Mark := none
  tag : Option Mark := none
  /-- The offset of the last line break behind an anchor or a tag. -/
  newlineBehind : Option Nat := none
  /-- The offset of the first anchor or tag. -/
  propertyOffset : Option Nat := none
  stop : Nat

namespace Preamble

variable (preamble : Preamble)

def hasProperty : Bool :=
  preamble.anchor.isSome || preamble.tag.isSome

/-- Where the node begins, with its properties. -/
def start : Nat :=
  preamble.propertyOffset.getD preamble.stop

end Preamble

/-- How far a preamble has been read. -/
structure PreambleProgress where
  preamble : Preamble
  atLineStart : Bool
  /-- A comment may follow. -/
  isSpaced : Bool
  /-- Only blanks, line breaks and commas may follow. -/
  needsSpace : Bool := false
  /-- Blanks just read, with a tab among them. -/
  tab : Option Mark := none

namespace PreambleProgress

def checkSpace (progress : PreambleProgress) (mark : Mark) : Except Fault Unit :=
  if progress.needsSpace && Following.ofMark mark = .other then .error .spacing else .ok ()

def checkTab (progress : PreambleProgress) (mark : Mark) : Except Fault Unit :=
  if progress.tab.isSome && progress.atLineStart && mark.kind ≠ .comment && mark.kind ≠ .newline then
    .error .tabIndentation
  else .ok ()

/-- Takes in a mark that is allowed here. -/
def take (place : PreamblePlace) (progress : PreambleProgress) (mark : Mark) :
    Except Fault PreambleProgress :=
  let preamble := progress.preamble
  let propertyOffset := preamble.propertyOffset.or (some mark.offset)
  let property (preamble : Preamble) : PreambleProgress :=
    { preamble, atLineStart := false, isSpaced := false, needsSpace := true }
  if mark.kind = .blanks then
    let mayIndent := place.isFlow || (place.indicator = .documentStart && place.following = .brackets)
    let tab := if !mayIndent && mark.text.contains '\t' then some mark else none
    .ok { preamble, atLineStart := progress.atLineStart, isSpaced := true, tab }
  else if mark.kind = .comment then
    if progress.isSpaced then
      .ok { preamble := { preamble with hasComment := true }, atLineStart := false, isSpaced := true }
    else .error .spacing
  else if mark.kind = .newline then
    let newlineBehind := if preamble.hasProperty then some mark.offset else preamble.newlineBehind
    .ok { preamble := { preamble with hasNewline := true, newlineBehind }, atLineStart := true, isSpaced := true }
  else if mark.kind = .anchor then
    if preamble.anchor.isSome then .error .repeatedProperty
    else .ok (property { preamble with anchor := some mark, propertyOffset })
  else if mark.kind = .tag then
    if preamble.tag.isSome then .error .repeatedProperty
    else .ok (property { preamble with tag := some mark, propertyOffset })
  else if mark.kind = place.indicator then
    if preamble.hasProperty then .error .propertyOrder
    else if preamble.indicator.isSome then .error .misplaced
    else
      .ok { preamble := { preamble with indicator := some mark }
            atLineStart := mark.kind = .itemMark || mark.kind = .keyMark, isSpaced := false }
  else if mark.kind = .comma && place.isFlow && !preamble.hasComma then
    .ok { preamble := { preamble with hasComma := true }, atLineStart := false, isSpaced := false }
  else .error .misplaced

def add (place : PreamblePlace) (progress : PreambleProgress) (mark : Mark) :
    Except Fault PreambleProgress := do
  progress.checkSpace mark
  progress.checkTab mark
  progress.take place mark

/-- Properties need a blank before the node, and tabs do not indent block nodes. -/
def finish (place : PreamblePlace) (progress : PreambleProgress) : Except Fault Preamble :=
  let isUnspaced := place.following ≠ .nothing && place.following ≠ .separated
  let indents (tab : Mark) : Bool :=
    (progress.atLineStart && tab.indent ≤ place.indent) || place.following = .blockCollection
  if progress.needsSpace && isUnspaced then .error .spacing
  else if (progress.tab.map indents).getD false then .error .tabIndentation
  else .ok progress.preamble

end PreambleProgress

/-- Reads the marks before a node. -/
def readPreamble (place : PreamblePlace) (marks : List Mark) : Except Fault Preamble := do
  let stop := (marks.getLast?.map Mark.stop).getD place.offset
  let first : PreambleProgress :=
    { preamble := { stop }, atLineStart := place.atLineStart, isSpaced := place.atLineStart }
  (← marks.foldlM (PreambleProgress.add place) first).finish place

/-- How many units the marks take. -/
def marksLength (marks : List Mark) : Nat :=
  (marks.flatMap (·.text)).length

/-- Behind a node only blanks, comments and line breaks may stand, and a comment
needs a blank or a line break before it. -/
def checkTrailing (marks : List Mark) : Except Fault Unit :=
  if !marks.all Mark.isFiller then .error .misplaced
  else if marks.head?.any (·.kind = .comment) then .error .spacing
  else .ok ()

end BuildPipeline.Yaml
