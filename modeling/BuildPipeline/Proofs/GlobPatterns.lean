import BuildPipeline.Proofs.Expressions
import BuildPipeline.Proofs.StoredText
import BuildPipeline.Rule.Glob
import Mathlib.Data.List.Forall2

/-! What a pattern covers, symbol by symbol: a star takes a run of units within a line,
a question mark one of them, and any other symbol just itself. The expression that is
written for the pattern accepts the same texts. -/

namespace BuildPipeline

namespace Symbol

def star : Symbol :=
  .ofUnit '*'

def questionMark : Symbol :=
  .ofUnit '?'

def IsLiteral (symbol : Symbol) : Prop :=
  symbol ≠ star ∧ symbol ≠ questionMark

/-- The pieces of a text that a symbol of a pattern can stand for. -/
inductive Takes : Symbol → Text → Prop
  | run {units : Text} (inLine : ∀ unit ∈ units, isLineEnd unit = false) : Takes star units
  | one {unit : CodeUnit} (inLine : isLineEnd unit = false) : Takes questionMark [unit]
  | itself {symbol : Symbol} (literal : symbol.IsLiteral) : Takes symbol symbol.units

variable {unit high low : CodeUnit} {symbol : Symbol} {piece : Text}

theorem units_ofUnit (unit : CodeUnit) : (ofUnit unit).units = [unit] := by
  unfold ofUnit
  split
  · rfl
  · exact unitsOfCode_toNat unit

theorem ofUnit_ne {other : CodeUnit} (different : unit ≠ other) : ofUnit unit ≠ ofUnit other := by
  intro same
  have sameUnits := congrArg units same
  rw [units_ofUnit, units_ofUnit] at sameUnits
  exact different (List.cons.inj sameUnits).1

theorem isLiteral_ofUnit (noStar : unit ≠ CodeUnit.ofChar '*') (noMark : unit ≠ CodeUnit.ofChar '?') :
    (ofUnit unit).IsLiteral :=
  ⟨ofUnit_ne noStar, ofUnit_ne noMark⟩

/-- The units of a pair lie above those of ASCII. -/
theorem ne_of_surrogate {other : CodeUnit} (surrogate : isHighSurrogate unit = true ∨ isLowSurrogate unit = true)
    (small : other.toNat < 0xD800) : unit ≠ other := by
  rintro rfl
  rw [isHighSurrogate_iff, isLowSurrogate_iff] at surrogate
  omega

theorem isLiteral_surrogate (surrogate : isHighSurrogate unit = true ∨ isLowSurrogate unit = true) :
    (ofUnit unit).IsLiteral :=
  isLiteral_ofUnit (ne_of_surrogate surrogate (by decide)) (ne_of_surrogate surrogate (by decide))

section Pair

variable (first : isHighSurrogate high = true) (second : isLowSurrogate low = true)

include first second

theorem units_pair : (character (pairCode high low)).units = [high, low] :=
  unitsOfCode_pairCode first second

theorem isLiteral_pair : (character (pairCode high low)).IsLiteral := by
  have apart (other : CodeUnit) : character (pairCode high low) ≠ ofUnit other := by
    intro same
    have sameUnits := congrArg units same
    rw [units_pair first second, units_ofUnit] at sameUnits
    cases sameUnits
  exact ⟨apart _, apart _⟩

end Pair

theorem takes_star : star.Takes piece ↔ ∀ unit ∈ piece, isLineEnd unit = false := by
  constructor
  · intro taken
    cases taken
    case run inLine => exact inLine
    case itself literal => exact absurd rfl literal.1
  · exact .run

theorem takes_questionMark : questionMark.Takes piece ↔ ∃ unit, isLineEnd unit = false ∧ piece = [unit] := by
  constructor
  · intro taken
    cases taken
    case one unit inLine => exact ⟨unit, inLine, rfl⟩
    case itself literal => exact absurd rfl literal.2
  · rintro ⟨unit, inLine, rfl⟩
    exact .one inLine

theorem takes_literal (literal : symbol.IsLiteral) : symbol.Takes piece ↔ piece = symbol.units := by
  constructor
  · intro taken
    cases taken
    case run => exact absurd rfl literal.1
    case one => exact absurd rfl literal.2
    case itself => rfl
  · rintro rfl
    exact .itself literal

end Symbol

namespace Text

/-- What is the same for a pair as for its two halves can be done unit by unit. -/
theorem flatMap_symbols {β : Type} {write : Symbol → List β}
    (pairs : ∀ {high low : CodeUnit}, isHighSurrogate high = true → isLowSurrogate low = true →
      write (.character (pairCode high low)) = write (.ofUnit high) ++ write (.ofUnit low)) (text : Text) :
    text.symbols.flatMap write = (text.map .ofUnit).flatMap write := by
  induction text using symbols.induct with
  | case1 => rfl
  | case2 unit => rfl
  | case3 high low rest pair ih =>
    obtain ⟨first, second⟩ := Bool.and_eq_true_iff.1 pair
    rw [symbols, if_pos pair, List.flatMap_cons, ih, pairs first second, List.append_assoc]
    rfl
  | case4 unit second rest apart ih =>
    rw [symbols, if_neg apart, List.flatMap_cons, ih]
    rfl

/-- Nothing of a text is lost in its symbols. -/
theorem flatMap_units (text : Text) : text.symbols.flatMap Symbol.units = text := by
  rw [flatMap_symbols fun first second => by
    rw [Symbol.units_pair first second, Symbol.units_ofUnit, Symbol.units_ofUnit]
    rfl]
  rw [List.flatMap_map]
  simp only [Symbol.units_ofUnit, List.flatMap_singleton']

end Text

namespace Glob

/-- The text falls into consecutive pieces, one for each symbol in order. -/
def Divides (symbols : List Symbol) (text : Text) : Prop :=
  ∃ pieces, List.Forall₂ Symbol.Takes symbols pieces ∧ text = pieces.flatten

def Covers (pattern text : Text) : Prop :=
  Divides pattern.symbols text

section Divides

variable {symbol : Symbol} {symbols others : List Symbol} {text : Text}

theorem divides_nil : Divides [] text ↔ text = [] := by
  constructor
  · rintro ⟨pieces, ⟨⟩, rfl⟩
    rfl
  · rintro rfl
    exact ⟨[], .nil, rfl⟩

theorem divides_cons : Divides (symbol :: symbols) text ↔
    ∃ piece rest, text = piece ++ rest ∧ symbol.Takes piece ∧ Divides symbols rest := by
  constructor
  · rintro ⟨_, _ | ⟨taken, fits⟩, rfl⟩
    exact ⟨_, _, rfl, taken, _, fits, rfl⟩
  · rintro ⟨piece, _, rfl, taken, pieces, fits, rfl⟩
    exact ⟨piece :: pieces, .cons taken fits, rfl⟩

theorem divides_literal (literal : symbol.IsLiteral) :
    Divides (symbol :: symbols) text ↔ ∃ rest, text = symbol.units ++ rest ∧ Divides symbols rest := by
  rw [divides_cons]
  constructor
  · rintro ⟨piece, rest, rfl, taken, divides⟩
    obtain rfl := (Symbol.takes_literal literal).1 taken
    exact ⟨rest, rfl, divides⟩
  · rintro ⟨rest, rfl, divides⟩
    exact ⟨_, rest, rfl, .itself literal, divides⟩

theorem divides_literals (literals : ∀ symbol ∈ symbols, symbol.IsLiteral) :
    Divides symbols text ↔ text = symbols.flatMap Symbol.units := by
  induction symbols generalizing text with
  | nil => exact divides_nil
  | cons symbol symbols ih =>
    obtain ⟨literal, literals⟩ := List.forall_mem_cons.1 literals
    simp only [divides_literal literal, ih literals, exists_eq_right, List.flatMap_cons]

theorem divides_append : Divides (symbols ++ others) text ↔
    ∃ front back, text = front ++ back ∧ Divides symbols front ∧ Divides others back := by
  induction symbols generalizing text with
  | nil =>
    simp only [List.nil_append, divides_nil]
    constructor
    · exact fun divides => ⟨[], text, rfl, rfl, divides⟩
    · rintro ⟨_, back, rfl, rfl, divides⟩
      exact divides
  | cons symbol symbols ih =>
    simp only [List.cons_append, divides_cons, ih]
    constructor
    · rintro ⟨piece, _, rfl, taken, front, back, rfl, divides, later⟩
      exact ⟨piece ++ front, back, (List.append_assoc _ _ _).symm, ⟨piece, front, rfl, taken, divides⟩, later⟩
    · rintro ⟨_, back, rfl, ⟨piece, front, rfl, taken, divides⟩, later⟩
      exact ⟨piece, front ++ back, List.append_assoc _ _ _, taken, front, back, rfl, divides, later⟩

end Divides

/-- A character from U+10000 on divides a text as its two surrogates do. -/
theorem divides_symbols (pattern : Text) {text : Text} :
    Divides pattern.symbols text ↔ Divides (pattern.map .ofUnit) text := by
  induction pattern using Text.symbols.induct generalizing text with
  | case1 => exact Iff.rfl
  | case2 unit => exact Iff.rfl
  | case3 high low rest pair ih =>
    obtain ⟨first, second⟩ := Bool.and_eq_true_iff.1 pair
    rw [Text.symbols, if_pos pair, List.map_cons, List.map_cons, divides_literal (Symbol.isLiteral_pair first second),
      divides_literal (Symbol.isLiteral_surrogate (.inl first)), Symbol.units_pair first second]
    simp only [ih, divides_literal (Symbol.isLiteral_surrogate (.inr second)), Symbol.units_ofUnit, List.cons_append,
      List.nil_append]
    constructor
    · rintro ⟨rest, rfl, divides⟩
      exact ⟨low :: rest, rfl, rest, rfl, divides⟩
    · rintro ⟨_, rfl, rest, rfl, divides⟩
      exact ⟨rest, rfl, divides⟩
  | case4 unit second rest apart ih =>
    rw [Text.symbols, if_neg apart, List.map_cons, divides_cons, divides_cons]
    simp only [ih]

section Source

open Expression

variable {unit : CodeUnit}

theorem mem_syntaxUnits_of_escaped : ∀ unit ∈ escapedUnits, unit ∈ syntaxUnits := by
  have listed : escapedUnits.all (· ∈ syntaxUnits) = true := by decide
  simpa only [List.all_eq_true, decide_eq_true_eq] using listed

/-- Nothing that is syntax is left without a backslash, apart from the wildcards. -/
theorem escaped_of_mem_syntaxUnits :
    ∀ unit ∈ syntaxUnits, unit = CodeUnit.ofChar '*' ∨ unit = CodeUnit.ofChar '?' ∨ unit ∈ escapedUnits := by
  have listed : syntaxUnits.all
      (fun unit => unit = CodeUnit.ofChar '*' ∨ unit = CodeUnit.ofChar '?' ∨ unit ∈ escapedUnits) = true := by decide
  simpa only [List.all_eq_true, decide_eq_true_eq] using listed

theorem symbolSource_of_units {symbol : Symbol} (noStar : symbol.units ≠ [CodeUnit.ofChar '*'])
    (noMark : symbol.units ≠ [CodeUnit.ofChar '?']) : symbolSource symbol = symbol.units.flatMap escape := by
  have star : Text.ofString "*" = [CodeUnit.ofChar '*'] := by decide
  have mark : Text.ofString "?" = [CodeUnit.ofChar '?'] := by decide
  rw [symbolSource, star, mark, if_neg noStar, if_neg noMark]

theorem symbolSource_ofUnit (noStar : unit ≠ CodeUnit.ofChar '*') (noMark : unit ≠ CodeUnit.ofChar '?') :
    symbolSource (.ofUnit unit) = escape unit := by
  rw [symbolSource_of_units, Symbol.units_ofUnit, List.flatMap_singleton]
  · rw [Symbol.units_ofUnit]
    exact fun same => noStar (List.cons.inj same).1
  · rw [Symbol.units_ofUnit]
    exact fun same => noMark (List.cons.inj same).1

/-- A character from U+10000 on is written as its two surrogates are. -/
theorem symbolSource_pair {high low : CodeUnit} (first : isHighSurrogate high = true)
    (second : isLowSurrogate low = true) : symbolSource (.character (pairCode high low)) =
      symbolSource (.ofUnit high) ++ symbolSource (.ofUnit low) := by
  have alone {surrogate : CodeUnit} (half : isHighSurrogate surrogate = true ∨ isLowSurrogate surrogate = true) :
      symbolSource (.ofUnit surrogate) = escape surrogate :=
    symbolSource_ofUnit (Symbol.ne_of_surrogate half (by decide)) (Symbol.ne_of_surrogate half (by decide))
  have units := Symbol.units_pair first second
  rw [alone (.inl first), alone (.inr second), symbolSource_of_units (by simp [units]) (by simp [units]), units,
    List.flatMap_cons, List.flatMap_singleton]

/-- What a unit of a pattern is compiled to. -/
def term (unit : CodeUnit) : ExpressionTerm :=
  if unit = '*' then .many .any else if unit = '?' then .one .any else .one (.exactly unit)

/-- The terms of a pattern's units, between the two ends of the text. -/
def expression (pattern : Text) : Expression :=
  .start :: (pattern.map term ++ [.finish])

theorem tokens?_escape (noStar : unit ≠ CodeUnit.ofChar '*') (noMark : unit ≠ CodeUnit.ofChar '?') (rest : Text) :
    tokens? (escape unit ++ rest) = (tokens? rest).map (.atom (.exactly unit) :: ·) := by
  unfold escape
  split_ifs with escaped
  · exact tokens?_backslash (mem_syntaxUnits_of_escaped unit escaped)
  · refine tokens?_plain fun listed => ?_
    rcases escaped_of_mem_syntaxUnits unit listed with star | mark | listed
    · exact noStar star
    · exact noMark mark
    · exact escaped listed

theorem tokens?_symbolSource (unit : CodeUnit) (rest : Text) :
    tokens? (symbolSource (.ofUnit unit) ++ rest) = (tokens? rest).map ((term unit).tokens ++ ·) := by
  unfold term
  split_ifs with star mark
  · have source : symbolSource (.ofUnit unit) = [CodeUnit.ofChar '.', CodeUnit.ofChar '*'] := by
      subst star
      decide
    rw [source, List.cons_append, List.cons_append, List.nil_append, tokens?_cons (by decide) rfl,
      tokens?_cons (by decide) rfl, Option.map_map]
    rfl
  · have source : symbolSource (.ofUnit unit) = [CodeUnit.ofChar '.'] := by
      subst mark
      decide
    rw [source, List.cons_append, List.nil_append, tokens?_cons (by decide) rfl]
    rfl
  · rw [symbolSource_ofUnit star mark, tokens?_escape star mark]
    rfl

theorem tokens?_flatMap (pattern rest : Text) : tokens? ((pattern.map .ofUnit).flatMap symbolSource ++ rest) =
    (tokens? rest).map ((pattern.map term).flatMap ExpressionTerm.tokens ++ ·) := by
  induction pattern with
  | nil => exact (congrFun Option.map_id (tokens? rest)).symm
  | cons unit pattern ih =>
    rw [List.map_cons, List.flatMap_cons, List.append_assoc, tokens?_symbolSource, ih, Option.map_map, List.map_cons,
      List.flatMap_cons]
    simp only [Function.comp_def, List.append_assoc]

theorem compile?_eq (pattern : Text) : compile? pattern = some (expression pattern) := by
  have opening : Text.ofString "^" = [CodeUnit.ofChar '^'] := by decide
  have closing : tokens? "$" = some [.finish] := by decide
  have read : tokens? (source pattern) = some ((expression pattern).flatMap ExpressionTerm.tokens) := by
    rw [source, expression, opening, Text.flatMap_symbols symbolSource_pair, List.append_assoc, List.singleton_append,
      tokens?_cons (by decide) rfl, tokens?_flatMap, closing, List.flatMap_cons, List.flatMap_append]
    rfl
  rw [compile?, parse?, read, Option.bind_some, terms?_tokens]

end Source

section Fits

open Expression

variable {length : Nat} {terms : Expression} {text : Text}

theorem fits_finish : Fits length [.finish] text ↔ text = [] := by
  constructor
  · rintro ⟨⟩
    rfl
  · rintro rfl
    exact .finish .ended

theorem fits_term (unit : CodeUnit) : Fits length (term unit :: terms) text ↔
    ∃ piece rest, text = piece ++ rest ∧ (Symbol.ofUnit unit).Takes piece ∧ Fits length terms rest := by
  unfold term
  split_ifs with star mark
  · have run : Symbol.ofUnit unit = Symbol.star := congrArg Symbol.ofUnit star
    simp only [fits_many, run, Symbol.takes_star, ExpressionAtom.takes, Bool.not_eq_true']
  · have one : Symbol.ofUnit unit = Symbol.questionMark := congrArg Symbol.ofUnit mark
    simp only [fits_one, one, Symbol.takes_questionMark, ExpressionAtom.takes, Bool.not_eq_true']
  · simp only [fits_one, Symbol.takes_literal (Symbol.isLiteral_ofUnit star mark), Symbol.units_ofUnit,
      ExpressionAtom.takes, beq_iff_eq, exists_eq_left]

/-- Behind each other, the terms of a pattern's units take what its symbols divide. -/
theorem fits_iff_divides (pattern : Text) :
    Fits length (pattern.map term ++ [.finish]) text ↔ Divides (pattern.map .ofUnit) text := by
  induction pattern generalizing text with
  | nil => exact fits_finish.trans divides_nil.symm
  | cons unit pattern ih =>
    rw [List.map_cons, List.cons_append, fits_term, List.map_cons, divides_cons]
    simp only [ih]

theorem tests_iff_covers (pattern : Text) : (expression pattern).tests text = true ↔ Covers pattern text := by
  rw [expression, tests_start_iff, fits_iff_divides, Covers, divides_symbols]

end Fits

theorem covers_append {pattern second text : Text} : Covers (pattern ++ second) text ↔
    ∃ front back, text = front ++ back ∧ Covers pattern front ∧ Covers second back := by
  simp only [Covers, divides_symbols, List.map_append, divides_append]

end Glob

theorem globMatches_iff {pattern text : Text} : globMatches pattern text = true ↔ Glob.Covers pattern text := by
  rw [globMatches, Glob.compile?_eq, Option.any_some, Glob.tests_iff_covers]

/-- A pattern without wildcards covers itself alone, whatever characters it is made of. -/
theorem globMatches_iff_eq {pattern text : Text} (literals : ∀ symbol ∈ pattern.symbols, symbol.IsLiteral) :
    globMatches pattern text = true ↔ text = pattern := by
  rw [globMatches_iff, Glob.Covers, Glob.divides_literals literals, Text.flatMap_units]

/-- Every pattern compiles, to an expression that accepts the texts that the pattern
covers symbol by symbol. What two patterns cover one behind the other, they cover as one. -/
theorem globs_cover_piecewise (pattern : Text) :
    ∃ expression, Glob.compile? pattern = some expression ∧
      (∀ text, expression.tests text = true ↔ Glob.Covers pattern text) ∧
      (∀ text, globMatches pattern text = expression.tests text) ∧
      ∀ second text, globMatches (pattern ++ second) text = true ↔
        ∃ front back, text = front ++ back ∧ globMatches pattern front = true ∧ globMatches second back = true := by
  refine ⟨_, Glob.compile?_eq pattern, fun text => Glob.tests_iff_covers pattern, ?_, ?_⟩
  · intro text
    rw [globMatches, Glob.compile?_eq, Option.any_some]
  · intro second text
    simp only [globMatches_iff, Glob.covers_append]

/-- A character from U+10000 on has two units, one too many for a question mark. -/
example : globMatches "?" [0xD83D, 0xDE00] = false ∧ globMatches "??" [0xD83D, 0xDE00] = true := by
  decide +kernel

end BuildPipeline
