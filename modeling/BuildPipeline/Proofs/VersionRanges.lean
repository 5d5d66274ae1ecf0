import BuildPipeline.Proofs.VersionOrder
import BuildPipeline.Proofs.WholeDoubles

/-! Versions and ranges as they are written. The components in front of a version are
read to the last one, and the sign in front of a bound says on which side of it the
versions lie that the range accepts. -/

namespace BuildPipeline

/-- Components written in decimal with dots between them. -/
inductive Version.Dotted : Text → Version → Prop
  | last {digits : Text} (filled : digits ≠ []) (decimal : ∀ unit ∈ digits, isDigit unit = true) :
      Dotted digits [digitsValue digits]
  | front {digits rest : Text} {version : Version} (filled : digits ≠ [])
      (decimal : ∀ unit ∈ digits, isDigit unit = true) (dotted : Dotted rest version) :
      Dotted (digits ++ CodeUnit.ofChar '.' :: rest) (digitsValue digits :: version)

/-- Neither a digit nor a further component stands in front. -/
def Version.Ends (suffix : Text) : Prop :=
  ∀ digit rest, isDigit digit = true → suffix ≠ digit :: rest ∧ suffix ≠ CodeUnit.ofChar '.' :: digit :: rest

/-- The text has these components in front, and no more of them. -/
def Version.Starts (text : Text) (version : Version) : Prop :=
  ∃ front suffix, text = front ++ suffix ∧ Dotted front version ∧ Ends suffix

/-- The signs of the operators; a bound without any stands for itself. -/
inductive RangeOperator.IsSign : Text → RangeOperator → Prop
  | caret : IsSign "^" .caret
  | tilde : IsSign "~" .tilde
  | atLeast : IsSign ">=" .atLeast
  | above : IsSign ">" .above
  | atMost : IsSign "<=" .atMost
  | below : IsSign "<" .below
  | equal : IsSign "=" .exactly
  | none : IsSign [] .exactly

/-- Doubles hold all components without rounding. -/
def Version.Exact (version : Version) : Prop :=
  ∀ component ∈ version, component < 2 ^ 53

def zeroParts (count : Nat) : Text :=
  (List.replicate count (".0" : Text)).flatten

/-- What a range with this operator and bound says of versions. -/
structure RangeAnswers (range : Text) (operator : RangeOperator) (bound : Version) : Prop where
  covered : ∀ text version, Version.Starts text version → version.Exact →
    (satisfiesRange text range = true ↔ operator.Covers bound version)
  between : ∀ first middle last low version high, Version.Starts first low → low.Exact →
    Version.Starts middle version → version.Exact → Version.Starts last high → high.Exact →
    low.AtMost version → version.AtMost high →
    satisfiesRange first range = true → satisfiesRange last range = true → satisfiesRange middle range = true
  zeros : ∀ text version longer count, Version.Starts text version → version.Exact →
    Version.Starts longer (version ++ List.replicate count 0) →
    satisfiesRange longer range = satisfiesRange text range
  appended : ∀ text version count, Version.Starts text version → version.Exact →
    satisfiesRange (text ++ zeroParts count) range = satisfiesRange text range

theorem isLineEnd_of_isBlank {unit : CodeUnit} (solid : isBlank unit = false) : isLineEnd unit = false := by
  simp [isBlank, isLineEnd, ← UInt16.toNat_inj, UInt16.le_iff_toNat_le] at solid ⊢
  omega

namespace Version

variable {front suffix text : Text} {version : Version}

theorem Ends.takeWhile (ends : Ends suffix) : suffix.takeWhile isDigit = [] := by
  cases suffix with
  | nil => rfl
  | cons unit rest => exact List.takeWhile_cons_of_neg fun digit => (ends unit rest digit).1 rfl

theorem Ends.takeWhile_tail {rest : Text} (ends : Ends (CodeUnit.ofChar '.' :: rest)) :
    rest.takeWhile isDigit = [] := by
  cases rest with
  | nil => rfl
  | cons unit rest => exact List.takeWhile_cons_of_neg fun digit => (ends unit rest digit).2 rfl

theorem component_of_exact {digits : Text} (small : digitsValue digits < 2 ^ 53) :
    component digits = digitsValue digits := by
  have more : 53 ≤ 1024 := by decide
  rw [component, Binary64.roundNat_of_lt small]
  -- The exponent is kept as a variable, for the power is not to be computed.
  generalize 1024 = exponent at more
  exact Nat.min_eq_left (small.le.trans (Nat.pow_le_pow_right (by decide) more))

theorem readComponents_of_takeWhile {rest : Text} (ended : rest.takeWhile isDigit = []) (count : Nat) :
    readComponents count rest = [] := by
  cases count with
  | zero => rfl
  | succ count => simp [readComponents, ended]

section Digits

variable {digits rest : Text} (filled : digits ≠ []) (decimal : ∀ unit ∈ digits, isDigit unit = true)
  (small : digitsValue digits < 2 ^ 53)

include decimal in
theorem takeWhile_digits (ended : rest.takeWhile isDigit = []) : (digits ++ rest).takeWhile isDigit = digits := by
  rw [List.takeWhile_append_of_pos decimal, ended, List.append_nil]

include decimal in
theorem dropWhile_digits (ended : rest.takeWhile isDigit = []) : (digits ++ rest).dropWhile isDigit = rest := by
  have whole := List.takeWhile_append_dropWhile (p := isDigit) (l := rest)
  rw [ended, List.nil_append] at whole
  rw [List.dropWhile_append_of_pos decimal, whole]

include filled decimal small in
theorem readComponents_dot (count : Nat) : readComponents (count + 1) (digits ++ CodeUnit.ofChar '.' :: rest) =
    digitsValue digits :: readComponents count rest := by
  have ended : (CodeUnit.ofChar '.' :: rest).takeWhile isDigit = [] := rfl
  simp [readComponents, takeWhile_digits decimal ended, dropWhile_digits decimal ended, filled, component_of_exact small]

include filled decimal small in
theorem readComponents_last (ends : Ends suffix) (count : Nat) :
    readComponents (count + 1) (digits ++ suffix) = [digitsValue digits] := by
  simp only [readComponents, takeWhile_digits decimal ends.takeWhile, dropWhile_digits decimal ends.takeWhile,
    List.isEmpty_iff, filled, if_false, component_of_exact small]
  congr 1
  split
  · rfl
  · split_ifs with dot
    · subst dot
      exact readComponents_of_takeWhile ends.takeWhile_tail count
    · rfl

end Digits

/-- All components are read, and reading stops behind the last one. -/
theorem readComponents_of_dotted (dotted : Dotted front version) (ends : Ends suffix) (exact : version.Exact)
    {count : Nat} (enough : version.length ≤ count) : readComponents count (front ++ suffix) = version := by
  induction dotted generalizing count with
  | last filled decimal =>
    obtain ⟨count, rfl⟩ := Nat.exists_eq_succ_of_ne_zero (Nat.one_le_iff_ne_zero.1 enough)
    exact readComponents_last filled decimal (exact _ List.mem_cons_self) ends count
  | front filled decimal dotted ih =>
    obtain ⟨count, rfl⟩ := Nat.exists_eq_succ_of_ne_zero (Nat.ne_zero_of_lt enough)
    have tail := ih (fun component later => exact component (.tail _ later)) (Nat.le_of_succ_le_succ enough)
    rw [List.append_assoc, List.cons_append, readComponents_dot filled decimal (exact _ List.mem_cons_self), tail]

theorem Dotted.length_le (dotted : Dotted front version) : version.length ≤ front.length := by
  induction dotted with
  | last filled _ => exact List.length_pos_iff.2 filled
  | front filled _ _ ih =>
    have some := List.length_pos_iff.2 filled
    simp only [List.length_append, List.length_cons]
    omega

theorem Dotted.ne_nil (dotted : Dotted front version) : version ≠ [] := by
  cases dotted <;> exact List.cons_ne_nil _ _

theorem ends_nil : Ends [] :=
  fun _ _ _ => ⟨nofun, nofun⟩

theorem Dotted.starts (dotted : Dotted front version) : Starts front version :=
  ⟨front, [], (List.append_nil front).symm, dotted, ends_nil⟩

theorem parse?_of_starts (starts : Starts text version) (exact : version.Exact) : parse? text = some version := by
  obtain ⟨front, suffix, rfl, dotted, ends⟩ := starts
  have enough : version.length ≤ (front ++ suffix).length := by
    rw [List.length_append]
    exact dotted.length_le.trans (Nat.le_add_right _ _)
  rw [parse?, readComponents_of_dotted dotted ends exact enough]
  cases version with
  | nil => exact absurd rfl dotted.ne_nil
  | cons first rest => rfl

theorem Exact.append_zeros (exact : version.Exact) (count : Nat) : (version ++ List.replicate count 0).Exact := by
  intro component listed
  rcases List.mem_append.1 listed with own | zero
  · exact exact component own
  · rw [List.eq_of_mem_replicate zero]
    decide

theorem Dotted.append_zero (dotted : Dotted front version) : Dotted (front ++ ".0") (version ++ [0]) := by
  induction dotted with
  | last filled decimal => exact .front filled decimal (.last (by decide) (List.all_eq_true.1 rfl))
  | front filled decimal _ ih =>
    rw [List.append_assoc]
    exact .front filled decimal ih

theorem Dotted.append_zeros (dotted : Dotted front version) (count : Nat) :
    Dotted (front ++ zeroParts count) (version ++ List.replicate count 0) := by
  induction count generalizing front version with
  | zero =>
    rw [zeroParts, List.replicate_zero, List.replicate_zero, List.flatten_nil, List.append_nil, List.append_nil]
    exact dotted
  | succ count ih =>
    have longer := ih dotted.append_zero
    rwa [List.append_assoc, List.append_assoc] at longer

/-- What ends a version still ends it when zeros are put behind. -/
theorem Ends.append_zeros (ends : Ends suffix) (some : suffix ≠ []) (count : Nat) :
    Ends (suffix ++ zeroParts count) := by
  obtain ⟨unit, others, rfl⟩ := List.exists_cons_of_ne_nil some
  intro digit rest decimal
  constructor
  · intro same
    obtain rfl : unit = digit := (List.cons.inj same).1
    exact (ends unit others decimal).1 rfl
  · intro same
    obtain ⟨rfl, behind⟩ := List.cons.inj same
    cases others with
    | nil =>
      cases count with
      | zero => cases behind
      | succ count =>
        obtain rfl : CodeUnit.ofChar '.' = digit := (List.cons.inj behind).1
        exact absurd decimal (by decide)
    | cons next others =>
      obtain rfl : next = digit := (List.cons.inj behind).1
      exact (ends next others decimal).2 rfl

theorem Starts.append_zeros (starts : Starts text version) (count : Nat) :
    ∃ more, Starts (text ++ zeroParts count) (version ++ List.replicate more 0) := by
  obtain ⟨front, suffix, rfl, dotted, ends⟩ := starts
  by_cases whole : suffix = []
  · refine ⟨count, ?_⟩
    rw [whole, List.append_nil]
    exact (dotted.append_zeros count).starts
  · refine ⟨0, front, suffix ++ zeroParts count, List.append_assoc _ _ _, ?_, ends.append_zeros whole count⟩
    rwa [List.replicate_zero, List.append_nil]

theorem Dotted.exists_digit (dotted : Dotted front version) :
    ∃ digit rest, front = digit :: rest ∧ isDigit digit = true := by
  have head : ∀ {digits : Text} (rest : Text), digits ≠ [] → (∀ unit ∈ digits, isDigit unit = true) →
      ∃ digit others, digits ++ rest = digit :: others ∧ isDigit digit = true := by
    intro digits rest filled decimal
    cases digits with
    | nil => exact absurd rfl filled
    | cons digit others => exact ⟨digit, others ++ rest, rfl, decimal digit List.mem_cons_self⟩
  cases dotted with
  | last filled decimal => simpa using head [] filled decimal
  | front filled decimal _ => exact head _ filled decimal

theorem Dotted.solid (dotted : Dotted front version) : ∀ unit ∈ front, isBlank unit = false := by
  induction dotted with
  | last _ decimal => exact fun unit listed => isBlank_of_isDigit (decimal unit listed)
  | front _ decimal _ ih =>
    intro unit listed
    rcases List.mem_append.1 listed with digit | later
    · exact isBlank_of_isDigit (decimal unit digit)
    · rcases List.mem_cons.1 later with rfl | later
      · rfl
      · exact ih unit later

end Version

namespace RangeOperator

variable {sign : Text} {operator : RangeOperator}

theorem IsSign.solid (signed : IsSign sign operator) : ∀ unit ∈ sign, isBlank unit = false := by
  have none : sign.all (!isBlank ·) = true := by
    cases signed <;> decide
  simpa using none

theorem IsSign.split_append (signed : IsSign sign operator) {digit : CodeUnit} (decimal : isDigit digit = true)
    (rest : Text) : split (sign ++ digit :: rest) = (operator, digit :: rest) := by
  have apart (unit : CodeUnit) (other : isDigit unit = false) : (unit == digit) = false := by
    refine beq_eq_false_iff_ne.2 ?_
    rintro rfl
    exact absurd (other.symm.trans decimal) Bool.false_ne_true
  have caret := apart 0x5E rfl
  have tilde := apart 0x7E rfl
  have above := apart 0x3E rfl
  have below := apart 0x3C rfl
  have equal := apart 0x3D rfl
  have units : signs = [([0x5E], .caret), ([0x7E], .tilde), ([0x3E, 0x3D], .atLeast), ([0x3E], .above),
      ([0x3C, 0x3D], .atMost), ([0x3C], .below), ([0x3D], .exactly)] := by decide
  have listed : (sign, operator) ∈ ([], exactly) :: signs := by
    cases signed <;> decide
  simp only [units, List.mem_cons, Prod.mk.injEq, List.not_mem_nil, or_false] at listed
  rw [split, units]
  rcases listed with ⟨rfl, rfl⟩ | ⟨rfl, rfl⟩ | ⟨rfl, rfl⟩ | ⟨rfl, rfl⟩ | ⟨rfl, rfl⟩ | ⟨rfl, rfl⟩ | ⟨rfl, rfl⟩ | ⟨rfl, rfl⟩
  all_goals simp [List.find?, List.isPrefixOf, caret, tilde, above, below, equal]

end RangeOperator

section Satisfies

variable {text sign written : Text} {operator : RangeOperator} {version bound : Version}

theorem solid_append (signed : operator.IsSign sign) (dotted : bound.Dotted written) :
    ∀ unit ∈ sign ++ written, isBlank unit = false :=
  List.forall_mem_append.2 ⟨signed.solid, dotted.solid⟩

/-- A range that ends in a digit is not the star. -/
theorem append_ne_star (dotted : bound.Dotted written) (sign : Text) : sign ++ written ≠ "*" := by
  intro star
  have single : Text.ofString "*" = [0x2A] := by decide
  obtain ⟨digit, rest, rfl, decimal⟩ := dotted.exists_digit
  rw [single] at star
  cases sign with
  | nil =>
    obtain rfl : digit = 0x2A := (List.cons.inj star).1
    exact absurd decimal (by decide)
  | cons unit others => exact absurd (List.cons.inj star).2 (by simp)

/-- Where both are read exactly, the operator decides. -/
theorem satisfiesRange_eq_admits (starts : version.Starts text) (exact : version.Exact)
    (signed : operator.IsSign sign) (dotted : bound.Dotted written) (exactBound : bound.Exact) :
    satisfiesRange text (sign ++ written) = operator.admits version bound := by
  have trimmed := Text.trim_of_solid (solid_append signed dotted)
  have oneLine : written.any isLineEnd = false := by
    simpa using fun unit listed => isLineEnd_of_isBlank (dotted.solid unit listed)
  have read := Version.parse?_of_starts starts exact
  have readBound := Version.parse?_of_starts dotted.starts exactBound
  obtain ⟨digit, rest, rfl, decimal⟩ := dotted.exists_digit
  simp only [satisfiesRange, trimmed, append_ne_star dotted sign, if_false, read, signed.split_append decimal,
    oneLine, readBound, Bool.false_eq_true]

theorem satisfiesRange_iff (starts : version.Starts text) (exact : version.Exact) (signed : operator.IsSign sign)
    (dotted : bound.Dotted written) (exactBound : bound.Exact) :
    satisfiesRange text (sign ++ written) = true ↔ operator.Covers bound version := by
  rw [satisfiesRange_eq_admits starts exact signed dotted exactBound, RangeOperator.admits_iff dotted.ne_nil]

/-- Versions that zeros at the end tell apart are accepted alike. -/
theorem satisfiesRange_congr {other : Text} {count : Nat} (starts : version.Starts text) (exact : version.Exact)
    (longer : (version ++ List.replicate count 0).Starts other) (signed : operator.IsSign sign)
    (dotted : bound.Dotted written) (exactBound : bound.Exact) :
    satisfiesRange other (sign ++ written) = satisfiesRange text (sign ++ written) := by
  rw [Bool.eq_iff_iff, satisfiesRange_iff longer (exact.append_zeros count) signed dotted exactBound,
    satisfiesRange_iff starts exact signed dotted exactBound]
  exact RangeOperator.covers_congr (Version.equivalent_append_zeros version count)

/-- A range accepts the versions on the side of its bound that its operator names: an
interval of a total preorder, with no regard to zeros at the end. -/
theorem satisfiesRange_by_order (signed : operator.IsSign sign) (dotted : bound.Dotted written)
    (exactBound : bound.Exact) :
    (IsPreorder Version Version.AtMost ∧ Std.Total Version.AtMost) ∧ RangeAnswers (sign ++ written) operator bound := by
  refine ⟨⟨Version.atMost_preorder, Version.atMost_total⟩, ?_⟩
  constructor
  case covered => exact fun text version starts exact => satisfiesRange_iff starts exact signed dotted exactBound
  case between =>
    intro first middle last low version high firstStarts firstExact starts exact lastStarts lastExact above below
      one other
    rw [satisfiesRange_iff firstStarts firstExact signed dotted exactBound] at one
    rw [satisfiesRange_iff lastStarts lastExact signed dotted exactBound] at other
    rw [satisfiesRange_iff starts exact signed dotted exactBound]
    exact one.between above below other
  case zeros =>
    exact fun text version longer count starts exact behind =>
      satisfiesRange_congr starts exact behind signed dotted exactBound
  case appended =>
    intro text version count starts exact
    obtain ⟨more, behind⟩ := starts.append_zeros count
    exact satisfiesRange_congr starts exact behind signed dotted exactBound

/-- The left-most component that is not zero stays, so only patch 3 is accepted. -/
theorem satisfiesRange_by_order_caret :
    RangeOperator.IsSign "^" .caret ∧ Version.Dotted "0.0.3" [0, 0, 3] ∧ Version.Exact [0, 0, 3] ∧
      satisfiesRange "0.0.3.9-rc1" "^0.0.3" = true ∧ satisfiesRange "0.0.4" "^0.0.3" = false ∧
      (IsPreorder Version Version.AtMost ∧ Std.Total Version.AtMost) ∧
      RangeAnswers ("^" ++ "0.0.3") .caret [0, 0, 3] := by
  have signed : RangeOperator.IsSign "^" .caret := .caret
  have dotted : Version.Dotted "0.0.3" [0, 0, 3] :=
    .front (by decide) (List.all_eq_true.1 rfl)
      (.front (by decide) (List.all_eq_true.1 rfl) (.last (by decide) (List.all_eq_true.1 rfl)))
  have exact : Version.Exact [0, 0, 3] := by
    unfold Version.Exact
    decide
  exact ⟨signed, dotted, exact, by decide +kernel, by decide +kernel, satisfiesRange_by_order signed dotted exact⟩

end Satisfies

end BuildPipeline
