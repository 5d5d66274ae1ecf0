import BuildPipeline.StackName

/-! Stack names made from directory names. Whatever the directory is called, its stack
has a name that is kept when a name is made from it again. -/

namespace BuildPipeline

/-- Digits, lower-case letters and dashes, with no dash at either end. -/
structure IsStackName (name : Text) : Prop where
  filled : name ≠ []
  units : ∀ unit ∈ name, ('0' ≤ unit ∧ unit ≤ '9') ∨ ('a' ≤ unit ∧ unit ≤ 'z') ∨ unit = '-'
  first : name.head? ≠ some (CodeUnit.ofChar '-')
  last : name.getLast? ≠ some (CodeUnit.ofChar '-')

theorem isNameUnit_iff {unit : CodeUnit} : isNameUnit unit = true ↔
    ('0' ≤ unit ∧ unit ≤ '9') ∨ ('a' ≤ unit ∧ unit ≤ 'z') ∨ unit = '-' := by
  simp only [isNameUnit, isDigit, Bool.or_eq_true, Bool.and_eq_true, decide_eq_true_eq, or_assoc]

theorem isNameUnit_of_mem {text : Text} (named : text.all isNameUnit = true) {unit : CodeUnit} (listed : unit ∈ text) :
    isNameUnit unit = true :=
  List.all_eq_true.1 named unit listed

theorem isNameUnit_of_mem_nameUnits {unit written : CodeUnit} (listed : written ∈ nameUnits unit) :
    isNameUnit written = true := by
  simp only [nameUnits] at listed
  split at listed
  next named => rwa [List.mem_singleton.1 listed]
  · split at listed
    · exact isNameUnit_of_mem (by decide) listed
    · split at listed
      · exact isNameUnit_of_mem (by decide) listed
      · exact isNameUnit_of_mem (by decide) listed

/-- A unit of a name is no capital, so it is written as it is. -/
theorem nameUnits_of_isNameUnit {unit : CodeUnit} (named : isNameUnit unit = true) : nameUnits unit = [unit] := by
  have lowered : lowerUnit unit = unit := by
    rw [lowerUnit, if_neg]
    have letters : (CodeUnit.ofChar 'A').toNat = 65 ∧ (CodeUnit.ofChar 'Z').toNat = 90 ∧
        (CodeUnit.ofChar 'a').toNat = 97 := by decide
    have others : (CodeUnit.ofChar '9').toNat = 57 ∧ (CodeUnit.ofChar '-').toNat = 45 := by decide
    simp only [isNameUnit_iff, Bool.and_eq_true, decide_eq_true_eq, UInt16.le_iff_toNat_le,
      ← UInt16.toNat_inj] at named ⊢
    omega
  simp only [nameUnits, lowered, named, if_true]

theorem head?_dropDashes (text : Text) : (dropDashes text).head? ≠ some (CodeUnit.ofChar '-') := by
  intro dash
  have kept := List.head?_dropWhile_not (fun unit => decide (unit = CodeUnit.ofChar '-')) text
  rw [show text.dropWhile (fun unit => decide (unit = CodeUnit.ofChar '-')) = dropDashes text from rfl, dash] at kept
  exact absurd kept (by decide)

theorem dropDashes_of_head? {text : Text} (kept : text.head? ≠ some (CodeUnit.ofChar '-')) : dropDashes text = text := by
  cases text with
  | nil => rfl
  | cons unit rest =>
    have other : unit ≠ '-' := fun dash => kept (congrArg some dash)
    simp [dropDashes, other]

/-- Without the dashes at both ends. -/
def trimDashes (text : Text) : Text :=
  (dropDashes (dropDashes text).reverse).reverse

theorem trimDashes_isPrefix (text : Text) : trimDashes text <+: dropDashes text := by
  have ending : dropDashes (dropDashes text).reverse <:+ (dropDashes text).reverse := List.dropWhile_suffix _
  simpa [trimDashes] using List.reverse_prefix.2 ending

theorem getLast?_trimDashes (text : Text) : (trimDashes text).getLast? ≠ some (CodeUnit.ofChar '-') := by
  rw [trimDashes, List.getLast?_reverse]
  exact head?_dropDashes _

theorem head?_trimDashes (text : Text) : (trimDashes text).head? ≠ some (CodeUnit.ofChar '-') := by
  intro dash
  obtain ⟨rest, same⟩ := List.head?_eq_some_iff.1 dash
  obtain ⟨ending, whole⟩ := trimDashes_isPrefix text
  refine head?_dropDashes text ?_
  rw [← whole, same]
  rfl

theorem sanitizeStackName_eq (directory : Text) : sanitizeStackName directory =
    if trimDashes (directory.flatMap nameUnits) = [] then Text.ofString "my-stack"
    else trimDashes (directory.flatMap nameUnits) := by
  simp only [sanitizeStackName, ← trimDashes.eq_1]
  split
  next empty => rw [if_pos empty]
  next filled => rw [if_neg filled]

theorem isStackName_sanitizeStackName (directory : Text) : IsStackName (sanitizeStackName directory) := by
  rw [sanitizeStackName_eq]
  split
  · exact ⟨by decide, fun unit listed => isNameUnit_iff.1 (isNameUnit_of_mem (by decide) listed), by decide, by decide⟩
  next filled =>
    refine ⟨filled, fun unit listed => isNameUnit_iff.1 ?_, head?_trimDashes _, getLast?_trimDashes _⟩
    have written : unit ∈ directory.flatMap nameUnits :=
      (List.dropWhile_suffix _).subset ((trimDashes_isPrefix _).subset listed)
    obtain ⟨source, _, own⟩ := List.mem_flatMap.1 written
    exact isNameUnit_of_mem_nameUnits own

theorem sanitizeStackName_of_isStackName {name : Text} (named : IsStackName name) : sanitizeStackName name = name := by
  have same : name.flatMap nameUnits = name := by
    have single : ∀ unit ∈ name, nameUnits unit = [unit] := fun unit listed =>
      nameUnits_of_isNameUnit (isNameUnit_iff.2 (named.units unit listed))
    rw [List.flatMap_def, List.map_congr_left single, ← List.flatMap_def, List.flatMap_singleton']
  have trimmed : trimDashes name = name := by
    rw [trimDashes, dropDashes_of_head? named.first, dropDashes_of_head?, List.reverse_reverse]
    rw [List.head?_reverse]
    exact named.last
  rw [sanitizeStackName_eq, same, trimmed, if_neg named.filled]

end BuildPipeline
