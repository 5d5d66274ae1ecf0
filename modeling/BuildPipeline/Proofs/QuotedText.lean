import BuildPipeline.Json.Quoted
import BuildPipeline.Proofs.StoredText

/-! Quoted text read back. Every escape and every pair of surrogates is undone, so
a quoted text ends in one place only and stands for one text. -/

namespace BuildPipeline

/-- Where an encoded value ends is known from its own units, and it has one value. -/
def Delimited {α : Type _} (encode : α → Text) : Prop :=
  ∀ left right after other, encode left ++ after = encode right ++ other → left = right ∧ after = other

namespace Json

def letterUnits : List (CodeUnit × CodeUnit) :=
  [(0x22, 0x22), (0x5C, 0x5C), (0x62, 0x08), (0x74, 0x09), (0x6E, 0x0A), (0x66, 0x0C), (0x72, 0x0D)]

def unitOfDigits? (first second third fourth : CodeUnit) : Option CodeUnit := do
  let first ← hexValue? first
  let second ← hexValue? second
  let third ← hexValue? third
  let fourth ← hexValue? fourth
  return (16 * (16 * (16 * first + second) + third) + fourth).toUInt16

def readBefore (unit : CodeUnit) (read : Text × Text) : Text × Text :=
  (unit :: read.1, read.2)

/-- Reads up to the closing quote, and leaves what follows it. -/
def unescape : Text → Option (Text × Text)
  | [] => none
  | first :: rest =>
    if first = 0x22 then some ([], rest)
    else if first = 0x5C then
      match rest with
      | [] => none
      | letter :: rest =>
        if letter = 0x75 then
          match rest with
          | first :: second :: third :: fourth :: rest => do
            let unit ← unitOfDigits? first second third fourth
            (unescape rest).map (readBefore unit)
          | _ => none
        else do
          let unit ← letterUnits.lookup letter
          (unescape rest).map (readBefore unit)
    else (unescape rest).map (readBefore first)

theorem unescape_quote (rest : Text) : unescape (0x22 :: rest) = some ([], rest) := by
  rw [unescape.eq_def]
  simp

theorem hexValue?_hexDigit : ∀ value < 16, hexValue? (hexDigit value) = some value := by
  decide

theorem unitOfDigits?_hexDigit (unit : CodeUnit) :
    unitOfDigits? (hexDigit (unit.toNat / 16 / 16 / 16 % 16)) (hexDigit (unit.toNat / 16 / 16 % 16))
      (hexDigit (unit.toNat / 16 % 16)) (hexDigit (unit.toNat % 16)) = some unit := by
  have digit (value : Nat) : hexValue? (hexDigit (value % 16)) = some (value % 16) :=
    hexValue?_hexDigit _ (Nat.mod_lt _ (by decide))
  have number : 16 * (16 * (16 * (unit.toNat / 16 / 16 / 16 % 16) + unit.toNat / 16 / 16 % 16) +
      unit.toNat / 16 % 16) + unit.toNat % 16 = unit.toNat := by
    have bound := unit.toNat_lt
    omega
  simp only [unitOfDigits?, digit, Option.bind_eq_bind, Option.bind_some, number]
  exact congrArg some UInt16.ofNat_toNat

theorem unescape_numericEscape (unit : CodeUnit) (rest : Text) :
    unescape (numericEscape unit.toNat ++ rest) = (unescape rest).map (readBefore unit) := by
  change (unitOfDigits? _ _ _ _).bind (fun unit => (unescape rest).map (readBefore unit)) = _
  rw [unitOfDigits?_hexDigit]
  rfl

theorem unescape_letter {letter unit : CodeUnit} (apart : letter ≠ 0x75)
    (known : letterUnits.lookup letter = some unit) (rest : Text) :
    unescape (0x5C :: letter :: rest) = (unescape rest).map (readBefore unit) := by
  rw [unescape.eq_def]
  simp [apart, known]

theorem unescape_cons {unit : CodeUnit} (noQuote : unit ≠ 0x22) (noBackslash : unit ≠ 0x5C) (rest : Text) :
    unescape (unit :: rest) = (unescape rest).map (readBefore unit) := by
  rw [unescape.eq_def]
  simp only [noQuote, noBackslash, if_false]

theorem unescape_of_escape? {unit : CodeUnit} {escape : Text} (escaped : escape? unit.toNat = some escape)
    (rest : Text) : unescape (escape ++ rest) = (unescape rest).map (readBefore unit) := by
  have byLetter (code letter : CodeUnit) (same : unit.toNat = code.toNat) (apart : letter ≠ 0x75)
      (known : letterUnits.lookup letter = some code) :
      unescape (0x5C :: letter :: rest) = (unescape rest).map (readBefore unit) := by
    obtain rfl := UInt16.toNat.inj same
    exact unescape_letter apart known rest
  unfold escape? at escaped
  split_ifs at escaped with quoteMark backslash backspace tab newline feed carriage control
  all_goals obtain rfl := Option.some.inj escaped
  · exact byLetter 0x22 0x22 quoteMark (by decide) rfl
  · exact byLetter 0x5C 0x5C backslash (by decide) rfl
  · exact byLetter 0x08 0x62 backspace (by decide) rfl
  · exact byLetter 0x09 0x74 tab (by decide) rfl
  · exact byLetter 0x0A 0x6E newline (by decide) rfl
  · exact byLetter 0x0C 0x66 feed (by decide) rfl
  · exact byLetter 0x0D 0x72 carriage (by decide) rfl
  · exact unescape_numericEscape unit rest

theorem ne_of_escape?_eq_none {unit : CodeUnit} (plain : escape? unit.toNat = none) :
    unit ≠ 0x22 ∧ unit ≠ 0x5C := by
  constructor <;> rintro rfl <;> cases plain

theorem unescape_ofUnit (unit : CodeUnit) (rest : Text) :
    unescape (escapeSymbol (.ofUnit unit) ++ rest) = (unescape rest).map (readBefore unit) := by
  unfold Symbol.ofUnit
  split
  · exact unescape_numericEscape unit rest
  · rw [escapeSymbol]
    cases escaped : escape? unit.toNat with
    | some escape => exact unescape_of_escape? escaped rest
    | none =>
      obtain ⟨noQuote, noBackslash⟩ := ne_of_escape?_eq_none escaped
      rw [Option.getD_none, unitsOfCode_toNat]
      exact unescape_cons noQuote noBackslash rest

theorem escapeSymbol_pairCode {high low : CodeUnit} (first : isHighSurrogate high = true)
    (second : isLowSurrogate low = true) : escapeSymbol (.character (pairCode high low)) = [high, low] := by
  have above := (pairCode_bounds first second).1
  have plain : escape? (pairCode high low) = none := by
    unfold escape?
    split_ifs <;> first | rfl | omega
  rw [escapeSymbol, plain, Option.getD_none, unitsOfCode_pairCode first second]

theorem unescape_symbols (text rest : Text) :
    unescape (text.symbols.flatMap escapeSymbol ++ 0x22 :: rest) = some (text, rest) := by
  induction text using Text.symbols.induct with
  | case1 => exact unescape_quote rest
  | case2 unit =>
    rw [Text.symbols, List.flatMap_singleton, unescape_ofUnit, unescape_quote]
    rfl
  | case3 first second others paired ih =>
    obtain ⟨high, low⟩ := Bool.and_eq_true_iff.1 paired
    obtain ⟨quoteHigh, backslashHigh⟩ : first ≠ 0x22 ∧ first ≠ 0x5C := by
      constructor <;> rintro rfl <;> cases high
    obtain ⟨quoteLow, backslashLow⟩ : second ≠ 0x22 ∧ second ≠ 0x5C := by
      constructor <;> rintro rfl <;> cases low
    rw [Text.symbols, if_pos paired, List.flatMap_cons, escapeSymbol_pairCode high low, List.append_assoc]
    rw [List.cons_append, List.cons_append, List.nil_append, unescape_cons quoteHigh backslashHigh,
      unescape_cons quoteLow backslashLow, ih]
    rfl
  | case4 first second others alone ih =>
    rw [Text.symbols, if_neg alone, List.flatMap_cons, List.append_assoc, unescape_ofUnit, ih]
    rfl

/-- A quoted text determines the text, whatever comes behind it. -/
theorem delimited_quote : Delimited quote := by
  intro left right after other same
  have opened (text rest : Text) :
      quote text ++ rest = 0x22 :: (text.symbols.flatMap escapeSymbol ++ 0x22 :: rest) := by
    rw [quote, List.append_assoc, List.append_assoc]
    rfl
  rw [opened, opened] at same
  have read := congrArg unescape (List.cons.inj same).2
  rw [unescape_symbols, unescape_symbols] at read
  exact Prod.ext_iff.1 (Option.some.inj read)

end Json

end BuildPipeline
