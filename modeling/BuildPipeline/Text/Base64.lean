import BuildPipeline.Text.Blank

/-! Bytes written in base sixty-four. Both customary alphabets are read, anything
that is in neither is passed over, and an equals sign ends the bytes. -/

namespace BuildPipeline

def sextet? (unit : CodeUnit) : Option Nat :=
  if 'A' ≤ unit && unit ≤ 'Z' then some (unit.toNat - 0x41)
  else if 'a' ≤ unit && unit ≤ 'z' then some (unit.toNat - 0x61 + 26)
  else if isDigit unit then some (unit.toNat - 0x30 + 52)
  else if unit = '+' || unit = '-' then some 62
  else if unit = '/' || unit = '_' then some 63
  else none

/-- Four sextets make three bytes; a shorter end makes one byte less than it has
sextets. -/
def bytesOfSextets : List Nat → List UInt8
  | first :: second :: third :: fourth :: rest =>
    let bits := ((first * 64 + second) * 64 + third) * 64 + fourth
    (bits / 0x10000).toUInt8 :: (bits / 0x100).toUInt8 :: bits.toUInt8 :: bytesOfSextets rest
  | [first, second, third] =>
    let bits := (first * 64 + second) * 64 + third
    [(bits / 0x400).toUInt8, (bits / 4).toUInt8]
  | [first, second] => [((first * 64 + second) / 16).toUInt8]
  | _ => []

def base64Bytes (text : Text) : List UInt8 :=
  bytesOfSextets ((text.takeWhile fun (unit : CodeUnit) => unit ≠ '=').filterMap sextet?)

end BuildPipeline
