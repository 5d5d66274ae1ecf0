import BuildPipeline.Text.Blank

/-! Regular expressions without groups, classes and choices: single units, repeated
units and the two ends of the text, read unit by unit. -/

namespace BuildPipeline

/-- The dot takes any unit but a line end. -/
inductive ExpressionAtom
  | any
  | exactly (value : CodeUnit)
deriving DecidableEq

inductive ExpressionTerm
  | start
  | finish
  | one (atom : ExpressionAtom)
  | many (atom : ExpressionAtom)
deriving DecidableEq

inductive ExpressionToken
  | start
  | finish
  | star
  | atom (value : ExpressionAtom)
deriving DecidableEq

def ExpressionAtom.takes : ExpressionAtom → CodeUnit → Bool
  | .any, unit => !isLineEnd unit
  | .exactly value, unit => unit == value

/-- Terms that are taken one after the other. -/
abbrev Expression := List ExpressionTerm

namespace Expression

/-- The units that stand for themselves only behind a backslash. -/
def syntaxUnits : Text :=
  "^$\\.*+?()[]\x7b\x7d|"

/-- What a unit means that no backslash precedes. -/
def token? (unit : CodeUnit) : Option ExpressionToken :=
  if unit = '^' then some .start
  else if unit = '$' then some .finish
  else if unit = '*' then some .star
  else if unit = '.' then some (.atom .any)
  else if unit ∈ syntaxUnits then none
  else some (.atom (.exactly unit))

def tokens? : Text → Option (List ExpressionToken)
  | [] => some []
  | unit :: rest =>
    if unit = '\\' then
      match rest with
      | [] => none
      | escaped :: rest =>
        if escaped ∈ syntaxUnits then (tokens? rest).map (.atom (.exactly escaped) :: ·) else none
    else (token? unit).bind fun token => (tokens? rest).map (token :: ·)

/-- A star repeats the atom in front of it and can stand nowhere else. -/
def terms? : List ExpressionToken → Option Expression
  | [] => some []
  | .start :: rest => (terms? rest).map (.start :: ·)
  | .finish :: rest => (terms? rest).map (.finish :: ·)
  | .star :: _ => none
  | .atom value :: .star :: rest => (terms? rest).map (.many value :: ·)
  | .atom value :: rest => (terms? rest).map (.one value :: ·)

def parse? (source : Text) : Option Expression :=
  (tokens? source).bind terms?

/-- What can be left of a text when the atom has been repeated, the longest first. -/
def remainders (atom : ExpressionAtom) : Text → List Text
  | [] => [[]]
  | unit :: rest => (unit :: rest) :: (if atom.takes unit then remainders atom rest else [])

/-- Whether the terms take a front of what is left of a text of this length. -/
def accepts (length : Nat) : Expression → Text → Bool
  | [], _ => true
  | .start :: terms, text => text.length == length && accepts length terms text
  | .finish :: terms, text => text.isEmpty && accepts length terms text
  | .one atom :: terms, text =>
    match text with
    | [] => false
    | unit :: rest => atom.takes unit && accepts length terms rest
  | .many atom :: terms, text => (remainders atom text).any (accepts length terms)

/-- From one place after the other. -/
def search (expression : Expression) (length : Nat) : Text → Bool
  | [] => accepts length expression []
  | unit :: rest => accepts length expression (unit :: rest) || search expression length rest

/-- Some part of the text fits. -/
def tests (expression : Expression) (text : Text) : Bool :=
  search expression text.length text

end Expression

end BuildPipeline
