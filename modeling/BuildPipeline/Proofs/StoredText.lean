import BuildPipeline.Text.Percent
import BuildPipeline.Text.Surrogate
import Mathlib.Tactic.SplitIfs

/-! What a file keeps of a text: as many units, the same bytes, and the text itself
when every surrogate in it has its partner. -/

namespace BuildPipeline

theorem unitsOfCode_toNat (unit : CodeUnit) : unitsOfCode unit.toNat = [unit] := by
  rw [unitsOfCode, if_pos unit.toNat_lt]
  exact congrArg (fun unit => [unit]) UInt16.ofNat_toNat

theorem isHighSurrogate_iff {unit : CodeUnit} :
    isHighSurrogate unit = true ↔ 0xD800 ≤ unit.toNat ∧ unit.toNat < 0xDC00 := by
  simp only [isHighSurrogate, Bool.and_eq_true, decide_eq_true_eq, UInt16.le_iff_toNat_le, UInt16.lt_iff_toNat_lt]
  exact Iff.rfl

theorem isLowSurrogate_iff {unit : CodeUnit} :
    isLowSurrogate unit = true ↔ 0xDC00 ≤ unit.toNat ∧ unit.toNat < 0xE000 := by
  simp only [isLowSurrogate, Bool.and_eq_true, decide_eq_true_eq, UInt16.le_iff_toNat_le, UInt16.lt_iff_toNat_lt]
  exact Iff.rfl

theorem isCharacterCode_iff {code : Nat} :
    isCharacterCode code = true ↔ code < 0xD800 ∨ 0xE000 ≤ code ∧ code < 0x110000 := by
  simp [isCharacterCode]

theorem pairCode_bounds {high low : CodeUnit} (first : isHighSurrogate high = true)
    (second : isLowSurrogate low = true) : 0x10000 ≤ pairCode high low ∧ pairCode high low < 0x110000 := by
  rw [isHighSurrogate_iff] at first
  rw [isLowSurrogate_iff] at second
  unfold pairCode
  omega

theorem unitsOfCode_pairCode {high low : CodeUnit} (first : isHighSurrogate high = true)
    (second : isLowSurrogate low = true) : unitsOfCode (pairCode high low) = [high, low] := by
  have above := (pairCode_bounds first second).1
  rw [isHighSurrogate_iff] at first
  rw [isLowSurrogate_iff] at second
  rw [unitsOfCode, if_neg (by omega)]
  have leading : 0xD800 + (pairCode high low - 0x10000) / 0x400 = high.toNat := by
    unfold pairCode
    omega
  have trailing : 0xDC00 + (pairCode high low - 0x10000) % 0x400 = low.toNat := by
    unfold pairCode
    omega
  simp only [leading, trailing]
  simp

namespace Symbol

theorem ofUnit_of_character {unit : CodeUnit} (plain : isCharacterCode unit.toNat = true) :
    ofUnit unit = .character unit.toNat := by
  rw [isCharacterCode_iff] at plain
  have notHigh : isHighSurrogate unit = false := by
    rw [Bool.eq_false_iff, ne_eq, isHighSurrogate_iff]
    omega
  have notLow : isLowSurrogate unit = false := by
    rw [Bool.eq_false_iff, ne_eq, isLowSurrogate_iff]
    omega
  simp [ofUnit, notHigh, notLow]

theorem isCharacterCode_ofUnit (unit : CodeUnit) : isCharacterCode (ofUnit unit).code = true := by
  unfold ofUnit
  split
  · rfl
  next alone =>
    simp only [Bool.or_eq_true, isHighSurrogate_iff, isLowSurrogate_iff] at alone
    have bound := unit.toNat_lt
    rw [code, isCharacterCode_iff]
    omega

theorem length_unitsOfCode_ofUnit (unit : CodeUnit) : (unitsOfCode (ofUnit unit).code).length = 1 := by
  unfold ofUnit
  split
  · rfl
  · rw [code, unitsOfCode_toNat]
    rfl

theorem unitsOfCode_ofUnit {unit : CodeUnit}
    (whole : (match ofUnit unit with | .character _ => false | .unpaired _ => true) = false) :
    unitsOfCode (ofUnit unit).code = [unit] := by
  by_cases alone : (isHighSurrogate unit || isLowSurrogate unit) = true
  · rw [ofUnit, if_pos alone] at whole
    cases whole
  · rw [ofUnit, if_neg alone, code, unitsOfCode_toNat]

end Symbol

namespace Text

theorem symbols_cons_of_character {unit : CodeUnit} (plain : isCharacterCode unit.toNat = true) (rest : Text) :
    symbols (unit :: rest) = .character unit.toNat :: symbols rest := by
  have notHigh : isHighSurrogate unit = false := by
    rw [isCharacterCode_iff] at plain
    rw [Bool.eq_false_iff, ne_eq, isHighSurrogate_iff]
    omega
  cases rest with
  | nil => rw [symbols, symbols, Symbol.ofUnit_of_character plain]
  | cons second rest => rw [symbols, notHigh, Bool.false_and, if_neg Bool.false_ne_true, Symbol.ofUnit_of_character plain]

/-- The units of a character are read back as that character. -/
theorem symbols_unitsOfCode {code : Nat} (valid : isCharacterCode code = true) (rest : Text) :
    symbols (unitsOfCode code ++ rest) = .character code :: symbols rest := by
  by_cases small : code < 0x10000
  · have same : code.toUInt16.toNat = code := by
      rw [Nat.toUInt16, UInt16.toNat_ofNat']
      exact Nat.mod_eq_of_lt small
    rw [unitsOfCode, if_pos small, List.singleton_append, symbols_cons_of_character (by rwa [same]), same]
  · rw [isCharacterCode_iff] at valid
    have leading : (0xD800 + (code - 0x10000) / 0x400).toUInt16.toNat = 0xD800 + (code - 0x10000) / 0x400 := by
      rw [Nat.toUInt16, UInt16.toNat_ofNat']
      exact Nat.mod_eq_of_lt (by omega)
    have trailing : (0xDC00 + (code - 0x10000) % 0x400).toUInt16.toNat = 0xDC00 + (code - 0x10000) % 0x400 := by
      rw [Nat.toUInt16, UInt16.toNat_ofNat']
      exact Nat.mod_eq_of_lt (by omega)
    have high : isHighSurrogate (0xD800 + (code - 0x10000) / 0x400).toUInt16 = true := by
      rw [isHighSurrogate_iff, leading]
      omega
    have low : isLowSurrogate (0xDC00 + (code - 0x10000) % 0x400).toUInt16 = true := by
      rw [isLowSurrogate_iff, trailing]
      omega
    have same : pairCode (0xD800 + (code - 0x10000) / 0x400).toUInt16
        (0xDC00 + (code - 0x10000) % 0x400).toUInt16 = code := by
      unfold pairCode
      omega
    simp only [unitsOfCode, if_neg small, List.cons_append, List.nil_append]
    rw [symbols, if_pos (Bool.and_eq_true_iff.2 ⟨high, low⟩), same]

theorem codes_flatMap_unitsOfCode {codes : List Nat} (valid : ∀ code ∈ codes, isCharacterCode code = true) :
    Text.codes (codes.flatMap unitsOfCode) = codes := by
  induction codes with
  | nil => rfl
  | cons code rest ih =>
    have tail := ih fun other later => valid other (.tail _ later)
    rw [Text.codes] at tail
    rw [List.flatMap_cons, Text.codes, symbols_unitsOfCode (valid code List.mem_cons_self), List.map_cons, tail]
    rfl

theorem isCharacterCode_of_mem_codes (text : Text) : ∀ code ∈ text.codes, isCharacterCode code = true := by
  unfold codes
  induction text using symbols.induct with
  | case1 => exact fun _ member => absurd member List.not_mem_nil
  | case2 unit => simpa [symbols] using Symbol.isCharacterCode_ofUnit unit
  | case3 first second rest paired ih =>
    obtain ⟨high, low⟩ := Bool.and_eq_true_iff.1 paired
    have bounds := pairCode_bounds high low
    rw [symbols, if_pos paired, List.map_cons, List.forall_mem_cons]
    refine ⟨?_, ih⟩
    rw [Symbol.code, isCharacterCode_iff]
    omega
  | case4 first second rest alone ih =>
    rw [symbols, if_neg alone, List.map_cons, List.forall_mem_cons]
    exact ⟨Symbol.isCharacterCode_ofUnit first, ih⟩

/-- Storing a text changes none of its bytes. -/
theorem utf8_stored (text : Text) : text.stored.utf8 = text.utf8 := by
  rw [utf8, utf8, stored, codes_flatMap_unitsOfCode text.isCharacterCode_of_mem_codes]

theorem length_stored (text : Text) : text.stored.length = text.length := by
  unfold stored codes
  induction text using symbols.induct with
  | case1 => rfl
  | case2 unit => simp [symbols, Symbol.length_unitsOfCode_ofUnit]
  | case3 first second rest paired ih =>
    obtain ⟨high, low⟩ := Bool.and_eq_true_iff.1 paired
    rw [symbols, if_pos paired, List.map_cons, List.flatMap_cons, List.length_append, ih, Symbol.code,
      unitsOfCode_pairCode high low, List.length_cons, List.length_cons, List.length_cons, List.length_cons,
      List.length_nil, Nat.add_comm]
  | case4 first second rest alone ih =>
    rw [symbols, if_neg alone, List.map_cons, List.flatMap_cons, List.length_append, ih,
      Symbol.length_unitsOfCode_ofUnit, List.length_cons (a := first), Nat.add_comm]

/-- A text of characters is kept as it is. -/
theorem stored_of_hasUnpaired_eq_false {text : Text} (whole : text.hasUnpaired = false) : text.stored = text := by
  unfold hasUnpaired at whole
  unfold stored codes
  induction text using symbols.induct with
  | case1 => rfl
  | case2 unit =>
    rw [symbols, List.any_cons, Bool.or_eq_false_iff] at whole
    rw [symbols, List.map_cons, List.flatMap_cons, Symbol.unitsOfCode_ofUnit whole.1]
    rfl
  | case3 first second rest paired ih =>
    obtain ⟨high, low⟩ := Bool.and_eq_true_iff.1 paired
    rw [symbols, if_pos paired, List.any_cons, Bool.or_eq_false_iff] at whole
    rw [symbols, if_pos paired, List.map_cons, List.flatMap_cons, ih whole.2, Symbol.code,
      unitsOfCode_pairCode high low]
    rfl
  | case4 first second rest alone ih =>
    rw [symbols, if_neg alone, List.any_cons, Bool.or_eq_false_iff] at whole
    rw [symbols, if_neg alone, List.map_cons, List.flatMap_cons, ih whole.2, Symbol.unitsOfCode_ofUnit whole.1]
    rfl

end Text

end BuildPipeline
