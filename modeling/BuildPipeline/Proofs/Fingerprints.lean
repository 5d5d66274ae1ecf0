import BuildPipeline.Spec.Payload

/-! What a fingerprint looks like: always the same number of units, each of them one of
the sixteen digits in lower case. -/

namespace BuildPipeline

/-- Digits of fingerprints. -/
def isHashDigit (unit : CodeUnit) : Bool :=
  isDigit unit || ('a' ≤ unit && unit ≤ 'f')

theorem isAlphanumeric_of_isHashDigit {unit : CodeUnit} (digit : isHashDigit unit = true) :
    isAlphanumeric unit = true := by
  have last : CodeUnit.ofChar 'f' ≤ CodeUnit.ofChar 'z' := by decide
  simp only [isHashDigit, isAlphanumeric, Bool.or_eq_true, Bool.and_eq_true, decide_eq_true_eq] at digit ⊢
  rcases digit with digit | ⟨low, high⟩
  · exact .inl (.inl digit)
  · exact .inr ⟨low, UInt16.le_trans high last⟩

theorem isBlank_of_isHashDigit {unit : CodeUnit} (digit : isHashDigit unit = true) : isBlank unit = false := by
  have low : (CodeUnit.ofChar 'a').toNat = 97 := rfl
  have high : (CodeUnit.ofChar 'f').toNat = 102 := rfl
  simp only [isHashDigit, Bool.or_eq_true, Bool.and_eq_true, decide_eq_true_eq, UInt16.le_iff_toNat_le] at digit
  rcases digit with digit | letter
  · exact isBlank_of_isDigit digit
  · simp [isBlank, ← UInt16.toNat_inj, UInt16.le_iff_toNat_le]
    omega

theorem ne_of_isHashDigit {unit : CodeUnit} (digit : isHashDigit unit = true) (mark : CodeUnit)
    (other : isHashDigit mark = false) : unit ≠ mark := by
  rintro rfl
  exact Bool.noConfusion (digit.symm.trans other)

structure IsFingerprint (hash : Text) : Prop where
  length : hash.length = fingerprintLength
  digits : ∀ unit ∈ hash, isHashDigit unit = true

theorem isHashDigit_hexDigit : ∀ value < 16, isHashDigit (Json.hexDigit value) = true := by
  decide +kernel

theorem isHashDigit_of_mem_hexDigits {width value : Nat} {unit : CodeUnit}
    (member : unit ∈ Json.hexDigits width value) : isHashDigit unit = true := by
  induction width generalizing value with
  | zero => cases member
  | succ width ih =>
    rcases List.mem_append.1 member with front | last
    · exact ih front
    · rw [List.mem_singleton.1 last]
      exact isHashDigit_hexDigit _ (Nat.mod_lt _ (by decide))

theorem length_hexDigits (width value : Nat) : (Json.hexDigits width value).length = width := by
  induction width generalizing value with
  | zero => rfl
  | succ width ih => rw [Json.hexDigits, List.length_append, ih, List.length_singleton]

theorem Sha256.length_digest (message : List UInt8) : (Sha256.digest message).length = 32 := by
  simp [Sha256.digest, Sha256.State.words, Sha256.bytesOfWord]

theorem isFingerprint_fingerprint (payload : Text) : IsFingerprint (fingerprint payload) where
  length := by
    simp only [fingerprint, List.length_flatMap, length_hexDigits, List.map_const', List.sum_replicate_nat,
      List.length_take, Sha256.length_digest]
    rfl
  digits := by
    intro unit member
    obtain ⟨byte, _, digit⟩ := List.mem_flatMap.1 member
    exact isHashDigit_of_mem_hexDigits digit

namespace IsFingerprint

variable {hash : Text}

theorem of_all (length : hash.length = fingerprintLength) (digits : hash.all isHashDigit = true) :
    IsFingerprint hash :=
  ⟨length, List.all_eq_true.1 digits⟩

theorem length_shortHash (whole : IsFingerprint hash) : (hash.take 7).length = 7 := by
  rw [List.length_take, whole.length]
  rfl

theorem isHashDigit_of_mem_take (whole : IsFingerprint hash) {count : Nat} {unit : CodeUnit}
    (member : unit ∈ hash.take count) : isHashDigit unit = true :=
  whole.digits unit (List.mem_of_mem_take member)

end IsFingerprint

end BuildPipeline
