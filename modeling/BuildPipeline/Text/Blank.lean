import BuildPipeline.Text.Basic

/-! Blank units: the tab, the line and paragraph ends, the space separators and
the byte order mark. -/

namespace BuildPipeline

/-- The next-line control U+0085 and the zero-width space U+200B are not blank. -/
def isBlank (unit : CodeUnit) : Bool :=
  (0x09 ≤ unit && unit ≤ 0x0D) || unit == 0x20 || unit == 0xA0 || unit == 0x1680 ||
    (0x2000 ≤ unit && unit ≤ 0x200A) || unit == 0x2028 || unit == 0x2029 || unit == 0x202F ||
    unit == 0x205F || unit == 0x3000 || unit == 0xFEFF

/-- The line feed, the carriage return and the two Unicode separators. -/
def isLineEnd (unit : CodeUnit) : Bool :=
  unit == 0x0A || unit == 0x0D || unit == 0x2028 || unit == 0x2029

def isSpaceOrTab (unit : CodeUnit) : Bool :=
  unit = ' ' || unit = '\t'

def isDigit (unit : CodeUnit) : Bool :=
  '0' ≤ unit && unit ≤ '9'

theorem isBlank_of_isDigit {unit : CodeUnit} (digit : isDigit unit = true) : isBlank unit = false := by
  have low : (CodeUnit.ofChar '0').toNat = 48 := rfl
  have high : (CodeUnit.ofChar '9').toNat = 57 := rfl
  simp only [isDigit, Bool.and_eq_true, decide_eq_true_eq, UInt16.le_iff_toNat_le] at digit
  simp [isBlank, ← UInt16.toNat_inj, UInt16.le_iff_toNat_le]
  omega

/-- Letters and digits of ASCII. -/
def isAlphanumeric (unit : CodeUnit) : Bool :=
  isDigit unit || ('A' ≤ unit && unit ≤ 'Z') || ('a' ≤ unit && unit ≤ 'z')

/-- The lower case of the capitals of ASCII. -/
def lowerUnit (unit : CodeUnit) : CodeUnit :=
  if 'A' ≤ unit && unit ≤ 'Z' then unit + 0x20 else unit

/-- The value of a run of decimal digits, most significant first. -/
def digitsValue (digits : Text) : Nat :=
  digits.foldl (fun value digit => 10 * value + (digit.toNat - 0x30)) 0

namespace Text

/-- The text without the units at its end that satisfy the test. -/
def dropEndWhile (test : CodeUnit → Bool) (text : Text) : Text :=
  text.foldr (fun unit rest => if test unit && rest.isEmpty then [] else unit :: rest) []

def trim (text : Text) : Text :=
  dropEndWhile isBlank (text.dropWhile isBlank)

theorem trim_of_solid {text : Text} (solid : ∀ unit ∈ text, isBlank unit = false) : text.trim = text := by
  have start : text.dropWhile isBlank = text := by
    cases text with
    | nil => rfl
    | cons unit rest => exact List.dropWhile_cons_of_neg (by simp [solid unit List.mem_cons_self])
  rw [trim, start]
  clear start
  induction text with
  | nil => rfl
  | cons unit rest ih =>
    have tail := ih fun other later => solid other (.tail _ later)
    rw [dropEndWhile] at tail ⊢
    rw [List.foldr_cons, tail, solid unit List.mem_cons_self]
    rfl

/-- The parts between separators; a text without any is its own only part. -/
def split (separator : CodeUnit) : Text → List Text
  | [] => [[]]
  | unit :: rest =>
    if unit = separator then [] :: split separator rest
    else match split separator rest with
      | [] => [[unit]]
      | part :: parts => (unit :: part) :: parts

end Text

end BuildPipeline
