import BuildPipeline.Document.Quoted

/-! Folding of a long one-line scalar at single spaces between words. -/

namespace BuildPipeline.Document

/-- The space that may become a line break, and where the line should end. -/
structure FoldState where
  previous : Option CodeUnit := none
  split : Option Nat := none
  limit : Nat
  breaks : List Nat := []

def isWordUnit (unit : Option CodeUnit) : Bool :=
  match unit with
  | some unit => unit != 0x20 && unit != 0x0A && unit != 0x09
  | none => false

/-- The line breaks, found unit by unit from `position` on. -/
def findBreaks (step position : Nat) (state : FoldState) : Text → List Nat
  | [] => state.breaks
  | unit :: rest =>
    let split :=
      if unit == 0x20 && isWordUnit state.previous && isWordUnit rest.head? then some position
      else state.split
    let state := match split with
      | some place =>
        if state.limit ≤ position then
          { state with split := none, limit := place + step, breaks := state.breaks ++ [place] }
        else { state with split := some place }
      | none => { state with split := none }
    findBreaks step (position + 1) { state with previous := some unit } rest

/-- Each unit, or a line break in its place. -/
def breakAt (indent : Nat) (breaks : List Nat) (position : Nat) : Text → Text
  | [] => []
  | unit :: rest =>
    (if position ∈ breaks then 0x0A :: List.replicate indent 0x20 else [unit]) ++
      breakAt indent breaks (position + 1) rest

/-- Folds at eighty columns a text that starts after `lead` columns. -/
def foldLine (indent lead : Nat) (text : Text) : Text :=
  let step := 81 - indent
  if text.length ≤ step || text.contains .newline || text.head? = some (CodeUnit.ofChar '"') then text
  else breakAt indent (findBreaks step 0 { limit := 80 - lead } text) 0 text

end BuildPipeline.Document
