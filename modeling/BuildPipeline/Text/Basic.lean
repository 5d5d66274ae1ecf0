import BuildPipeline.Sorting

/-! Text as its UTF-16 code units. Lengths, cuts and the order of texts are all
counted in units, so half of a surrogate pair may stand alone. -/

namespace BuildPipeline

abbrev CodeUnit := UInt16

namespace CodeUnit

/-- The unit of a character below U+10000. -/
def ofChar (character : Char) : CodeUnit :=
  character.val.toUInt16

@[match_pattern] abbrev newline : CodeUnit := 0x0A

@[match_pattern] abbrev space : CodeUnit := 0x20

end CodeUnit

instance : Coe Char CodeUnit := ⟨CodeUnit.ofChar⟩

/-- Sequences of code units need not be well-formed text. -/
abbrev Text := List CodeUnit

/-- Comparing texts unit by unit decides their equality. -/
instance : LawfulBEq Text := inferInstance

/-- Characters from U+10000 on take a pair of surrogates. -/
def unitsOfCode (code : Nat) : Text :=
  if code < 0x10000 then [code.toUInt16]
  else
    let offset := code - 0x10000
    [(0xD800 + offset / 0x400).toUInt16, (0xDC00 + offset % 0x400).toUInt16]

namespace Text

def ofChars (characters : List Char) : Text :=
  characters.flatMap fun character => unitsOfCode character.toNat

def ofString (content : String) : Text :=
  ofChars content.toList

/-- The parts with a separator between neighbours. -/
def join (separator : Text) : List Text → Text
  | [] => []
  | [only] => only
  | first :: rest => first ++ separator ++ join separator rest

theorem join_cons (separator first : Text) (rest : List Text) :
    join separator (first :: rest) = first ++ rest.flatMap (separator ++ ·) := by
  induction rest generalizing first with
  | nil => simp [join]
  | cons second others ih =>
    rw [join, ih, List.flatMap_cons, List.append_assoc, List.append_assoc]
    simp

end Text

instance : Coe String Text := ⟨Text.ofString⟩

/-- The decimal digits of a number. -/
def decimal (value : Nat) : Text :=
  (Nat.toDigits 10 value).map CodeUnit.ofChar

/-- Lexicographic order, a proper start first. -/
def textLe : Text → Text → Bool
  | [], _ => true
  | _ :: _, [] => false
  | first :: rest, other :: others => first < other || (first == other && textLe rest others)

def sortTexts (texts : List Text) : List Text :=
  sortBy textLe texts

end BuildPipeline
