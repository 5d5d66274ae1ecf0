import BuildPipeline.Rule.Expression

/-! What regular expressions accept, said without a search: every term takes a piece of
the text, one after the other. The search finds such pieces wherever there are any. -/

namespace BuildPipeline

namespace Expression

/-- The terms take a front of what is left of a text of this length. -/
inductive Fits (length : Nat) : Expression → Text → Prop
  | ended {text : Text} : Fits length [] text
  | start {terms : Expression} {text : Text} (whole : text.length = length) (fits : Fits length terms text) :
      Fits length (.start :: terms) text
  | finish {terms : Expression} (fits : Fits length terms []) : Fits length (.finish :: terms) []
  | one {atom : ExpressionAtom} {terms : Expression} {unit : CodeUnit} {rest : Text}
      (taken : atom.takes unit = true) (fits : Fits length terms rest) : Fits length (.one atom :: terms) (unit :: rest)
  | many {atom : ExpressionAtom} {terms : Expression} {run rest : Text}
      (taken : ∀ unit ∈ run, atom.takes unit = true) (fits : Fits length terms rest) :
      Fits length (.many atom :: terms) (run ++ rest)

section Search

variable {atom : ExpressionAtom} {expression terms : Expression} {text rest : Text} {length : Nat}

theorem mem_remainders :
    rest ∈ remainders atom text ↔ ∃ run, text = run ++ rest ∧ ∀ unit ∈ run, atom.takes unit = true := by
  induction text with
  | nil =>
    rw [remainders, List.mem_singleton]
    constructor
    · rintro rfl
      exact ⟨[], rfl, nofun⟩
    · rintro ⟨run, same, -⟩
      exact (List.append_eq_nil_iff.1 same.symm).2
  | cons unit others ih =>
    rw [remainders, List.mem_cons]
    constructor
    · rintro (rfl | later)
      · exact ⟨[], rfl, nofun⟩
      · split at later
        next taken =>
          obtain ⟨run, rfl, takes⟩ := ih.1 later
          exact ⟨unit :: run, rfl, List.forall_mem_cons.2 ⟨taken, takes⟩⟩
        next => cases later
    · rintro ⟨run, same, takes⟩
      cases run with
      | nil => exact .inl same.symm
      | cons first run =>
        obtain ⟨rfl, rfl⟩ := List.cons.inj same
        obtain ⟨taken, takes⟩ := List.forall_mem_cons.1 takes
        rw [if_pos taken]
        exact .inr (ih.2 ⟨run, rfl, takes⟩)

theorem fits_one : Fits length (.one atom :: terms) text ↔
    ∃ piece rest, text = piece ++ rest ∧ (∃ unit, atom.takes unit = true ∧ piece = [unit]) ∧ Fits length terms rest := by
  constructor
  · rintro ⟨⟩
    exact ⟨[_], _, rfl, ⟨_, ‹_›, rfl⟩, ‹_›⟩
  · rintro ⟨_, rest, rfl, ⟨unit, taken, rfl⟩, fits⟩
    exact .one taken fits

theorem fits_many : Fits length (.many atom :: terms) text ↔
    ∃ run rest, text = run ++ rest ∧ (∀ unit ∈ run, atom.takes unit = true) ∧ Fits length terms rest := by
  constructor
  · rintro ⟨⟩
    exact ⟨_, _, rfl, ‹_›, ‹_›⟩
  · rintro ⟨run, rest, rfl, taken, fits⟩
    exact .many taken fits

/-- The search goes wrong in neither direction, however many repetitions there are. -/
theorem accepts_iff : accepts length expression text = true ↔ Fits length expression text := by
  induction expression generalizing text with
  | nil => exact iff_of_true rfl .ended
  | cons term terms ih =>
    cases term with
    | start =>
      rw [accepts, Bool.and_eq_true, beq_iff_eq, ih]
      constructor
      · exact fun ⟨whole, fits⟩ => .start whole fits
      · rintro ⟨⟩
        exact ⟨‹_›, ‹_›⟩
    | finish =>
      rw [accepts, Bool.and_eq_true, List.isEmpty_iff, ih]
      constructor
      · rintro ⟨rfl, fits⟩
        exact .finish fits
      · rintro ⟨⟩
        exact ⟨rfl, ‹_›⟩
    | one atom =>
      cases text with
      | nil => exact iff_of_false Bool.false_ne_true nofun
      | cons unit rest =>
        rw [accepts, Bool.and_eq_true, ih]
        constructor
        · exact fun ⟨taken, fits⟩ => .one taken fits
        · rintro ⟨⟩
          exact ⟨‹_›, ‹_›⟩
    | many atom =>
      simp only [accepts, List.any_eq_true, mem_remainders, ih, fits_many]
      constructor
      · rintro ⟨rest, ⟨run, same, taken⟩, fits⟩
        exact ⟨run, rest, same, taken, fits⟩
      · rintro ⟨run, rest, same, taken, fits⟩
        exact ⟨rest, ⟨run, same, taken⟩, fits⟩

theorem search_iff : search expression length text = true ↔
    ∃ front rest, text = front ++ rest ∧ Fits length expression rest := by
  induction text with
  | nil =>
    rw [search, accepts_iff]
    constructor
    · exact fun fits => ⟨[], [], rfl, fits⟩
    · rintro ⟨front, rest, same, fits⟩
      obtain ⟨-, rfl⟩ := List.append_eq_nil_iff.1 same.symm
      exact fits
  | cons unit others ih =>
    rw [search, Bool.or_eq_true, accepts_iff, ih]
    constructor
    · rintro (fits | ⟨front, rest, rfl, fits⟩)
      · exact ⟨[], _, rfl, fits⟩
      · exact ⟨unit :: front, rest, rfl, fits⟩
    · rintro ⟨front, rest, same, fits⟩
      cases front with
      | nil =>
        obtain rfl := same
        exact .inl fits
      | cons first front => exact .inr ⟨front, rest, (List.cons.inj same).2, fits⟩

/-- An expression that begins at the start of the text is tried there only. -/
theorem tests_start_iff : tests (.start :: terms) text = true ↔ Fits text.length terms text := by
  rw [tests, search_iff]
  constructor
  · rintro ⟨front, rest, rfl, fits⟩
    cases fits with
    | start whole fits =>
      rw [List.length_append, Nat.right_eq_add, List.length_eq_zero_iff] at whole
      subst whole
      exact fits
  · exact fun fits => ⟨[], text, rfl, .start rfl fits⟩

end Search

section Reading

variable {unit : CodeUnit} {rest : Text} {token : ExpressionToken}

theorem tokens?_backslash (listed : unit ∈ syntaxUnits) :
    tokens? (CodeUnit.ofChar '\\' :: unit :: rest) = (tokens? rest).map (.atom (.exactly unit) :: ·) := by
  rw [tokens?, if_pos rfl, if_pos listed]

theorem tokens?_cons (other : unit ≠ CodeUnit.ofChar '\\') (means : token? unit = some token) :
    tokens? (unit :: rest) = (tokens? rest).map (token :: ·) := by
  rw [tokens?.eq_def]
  simp only [if_neg other, means, Option.bind_some]

theorem ne_of_not_mem_syntaxUnits {sign : CodeUnit} (listed : sign ∈ syntaxUnits) (plain : unit ∉ syntaxUnits) :
    unit ≠ sign := by
  rintro rfl
  exact plain listed

/-- A unit that is no syntax stands for itself. -/
theorem tokens?_plain (plain : unit ∉ syntaxUnits) :
    tokens? (unit :: rest) = (tokens? rest).map (.atom (.exactly unit) :: ·) := by
  refine tokens?_cons (ne_of_not_mem_syntaxUnits (by decide) plain) ?_
  rw [token?, if_neg (ne_of_not_mem_syntaxUnits (by decide) plain),
    if_neg (ne_of_not_mem_syntaxUnits (by decide) plain), if_neg (ne_of_not_mem_syntaxUnits (by decide) plain),
    if_neg (ne_of_not_mem_syntaxUnits (by decide) plain), if_neg plain]

end Reading

end Expression

/-- How a term is written. -/
def ExpressionTerm.tokens : ExpressionTerm → List ExpressionToken
  | .start => [.start]
  | .finish => [.finish]
  | .one atom => [.atom atom]
  | .many atom => [.atom atom, .star]

namespace Expression

theorem terms?_atom {rest : List ExpressionToken} (atom : ExpressionAtom) (other : rest.head? ≠ some .star) :
    terms? (.atom atom :: rest) = (terms? rest).map (.one atom :: ·) := by
  cases rest with
  | nil => rfl
  | cons token rest =>
    cases token with
    | star => exact absurd rfl other
    | start | finish | atom => rfl

theorem head?_tokens_ne_star (expression : Expression) :
    (expression.flatMap ExpressionTerm.tokens).head? ≠ some .star := by
  cases expression with
  | nil => nofun
  | cons term terms => cases term <;> nofun

/-- What is written term by term is read back as it was. -/
theorem terms?_tokens (expression : Expression) :
    terms? (expression.flatMap ExpressionTerm.tokens) = some expression := by
  induction expression with
  | nil => rfl
  | cons term terms ih =>
    rw [List.flatMap_cons]
    cases term with
    | start | finish => exact congrArg (Option.map _) ih
    | one atom =>
      have read := terms?_atom atom (head?_tokens_ne_star terms)
      rw [ih] at read
      exact read
    | many atom => exact congrArg (Option.map _) ih

end Expression

end BuildPipeline
