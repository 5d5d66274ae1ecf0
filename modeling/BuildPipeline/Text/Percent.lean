import BuildPipeline.Text.Basic

/-! Percent escapes: two hexadecimal digits behind a percent sign stand for a byte,
and the bytes of a run are UTF-8. -/

namespace BuildPipeline

/-- A byte from an escape, or a unit that stands for itself. -/
inductive PercentPiece
  | byte (value : Nat)
  | unit (value : CodeUnit)
deriving DecidableEq

def hexValue? (unit : CodeUnit) : Option Nat :=
  if '0' ≤ unit && unit ≤ '9' then some (unit.toNat - 0x30)
  else if 'a' ≤ unit && unit ≤ 'f' then some (unit.toNat - 0x61 + 10)
  else if 'A' ≤ unit && unit ≤ 'F' then some (unit.toNat - 0x41 + 10)
  else none

def percentPieces : Text → Option (List PercentPiece)
  | first :: second :: third :: rest =>
    if first = '%' then do
      let high ← hexValue? second
      let low ← hexValue? third
      return .byte (16 * high + low) :: (← percentPieces rest)
    else (percentPieces (second :: third :: rest)).map (.unit first :: ·)
  | rest => if rest.contains '%' then none else some (rest.map .unit)

/-- A character that is being read from its bytes. -/
structure PartialCode where
  /-- How many bytes are still to come. -/
  missing : Nat
  code : Nat
  /-- Smaller codes have a shorter form. -/
  least : Nat

def PartialCode.ofLead? (byte : Nat) : Option PartialCode :=
  if byte < 0xC0 then none
  else if byte < 0xE0 then some ⟨1, byte - 0xC0, 0x80⟩
  else if byte < 0xF0 then some ⟨2, byte - 0xE0, 0x800⟩
  else if byte < 0xF8 then some ⟨3, byte - 0xF0, 0x10000⟩
  else none

def isCharacterCode (code : Nat) : Bool :=
  code < 0xD800 || (0xE000 ≤ code && code < 0x110000)

/-- Absent when the bytes are not well-formed. -/
def joinPieces : Option PartialCode → List PercentPiece → Option Text
  | none, [] => some []
  | some _, [] => none
  | none, .unit value :: rest => (joinPieces none rest).map (value :: ·)
  | some _, .unit _ :: _ => none
  | none, .byte value :: rest =>
    if value < 0x80 then (joinPieces none rest).map (unitsOfCode value ++ ·)
    else
      match PartialCode.ofLead? value with
      | some started => joinPieces (some started) rest
      | none => none
  | some started, .byte value :: rest =>
    let code := 0x40 * started.code + (value - 0x80)
    if value < 0x80 || 0xC0 ≤ value then none
    else if 1 < started.missing then joinPieces (some ⟨started.missing - 1, code, started.least⟩) rest
    else if started.least ≤ code && isCharacterCode code then
      (joinPieces none rest).map (unitsOfCode code ++ ·)
    else none

/-- The text without escapes. -/
def percentDecoded? (text : Text) : Option Text := do
  joinPieces none (← percentPieces text)

end BuildPipeline
