import BuildPipeline.Text.Basic

/-! Surrogates: which units pair up to a character, and what becomes of those
that do not when text is stored as bytes. -/

namespace BuildPipeline

def isHighSurrogate (unit : CodeUnit) : Bool :=
  0xD800 ≤ unit && unit < 0xDC00

def isLowSurrogate (unit : CodeUnit) : Bool :=
  0xDC00 ≤ unit && unit < 0xE000

/-- The code of the character that a pair stands for. -/
def pairCode (high low : CodeUnit) : Nat :=
  0x10000 + (high.toNat - 0xD800) * 0x400 + (low.toNat - 0xDC00)

/-- A character by its code, or a surrogate without its partner. -/
inductive Symbol
  | character (code : Nat)
  | unpaired (unit : CodeUnit)
deriving DecidableEq

def Symbol.ofUnit (unit : CodeUnit) : Symbol :=
  if isHighSurrogate unit || isLowSurrogate unit then .unpaired unit else .character unit.toNat

/-- What an unpaired surrogate becomes where only characters can stand. -/
def replacementCode : Nat := 0xFFFD

def Symbol.code : Symbol → Nat
  | .character code => code
  | .unpaired _ => replacementCode

def Symbol.units : Symbol → Text
  | .character code => unitsOfCode code
  | .unpaired unit => [unit]

namespace Text

/-- Pairs surrogates from the left. -/
def symbols : Text → List Symbol
  | [] => []
  | [unit] => [.ofUnit unit]
  | first :: second :: rest =>
    if isHighSurrogate first && isLowSurrogate second then
      .character (pairCode first second) :: symbols rest
    else .ofUnit first :: symbols (second :: rest)

/-- The character codes, with U+FFFD for every unpaired surrogate. -/
def codes (text : Text) : List Nat :=
  text.symbols.map Symbol.code

def hasUnpaired (text : Text) : Bool :=
  text.symbols.any fun
    | .character _ => false
    | .unpaired _ => true

/-- The text as it comes back from a file. -/
def stored (text : Text) : Text :=
  text.codes.flatMap unitsOfCode

def toString (text : Text) : String :=
  String.ofList (text.codes.map Char.ofNat)

end Text

/-- The UTF-8 bytes of a character. -/
def utf8OfCode (code : Nat) : List UInt8 :=
  let continued (shift : Nat) : UInt8 := (0x80 + code / Nat.pow 2 shift % 0x40).toUInt8
  if code < 0x80 then [code.toUInt8]
  else if code < 0x800 then [(0xC0 + code / 0x40).toUInt8, continued 0]
  else if code < 0x10000 then [(0xE0 + code / 0x1000).toUInt8, continued 6, continued 0]
  else [(0xF0 + code / 0x40000).toUInt8, continued 12, continued 6, continued 0]

def Text.utf8 (text : Text) : List UInt8 :=
  text.codes.flatMap utf8OfCode

end BuildPipeline
