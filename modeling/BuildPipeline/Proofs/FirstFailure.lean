import Mathlib.Data.List.Forall2

/-! Computations that stop at their first failure, taken apart one step at a time. -/

namespace BuildPipeline

variable {α β ε : Type _}

theorem bind_eq_ok_iff {first : Except ε α} {next : α → Except ε β} {result : β} :
    (first >>= next) = .ok result ↔ ∃ value, first = .ok value ∧ next value = .ok result := by
  cases first <;> simp [bind, Except.bind]

/-- The failure is that of the first step, or that of the rest after it. -/
theorem bind_eq_error_iff {first : Except ε α} {next : α → Except ε β} {failure : ε} :
    (first >>= next) = .error failure ↔
      first = .error failure ∨ ∃ value, first = .ok value ∧ next value = .error failure := by
  cases first <;> simp [bind, Except.bind]

theorem mapError_eq_ok_iff {δ : Type _} {result : Except ε α} {change : ε → δ} {value : α} :
    result.mapError change = .ok value ↔ result = .ok value := by
  cases result <;> simp [Except.mapError]

theorem mapError_eq_error_iff {δ : Type _} {result : Except ε α} {change : ε → δ} {failure : δ} :
    result.mapError change = .error failure ↔ ∃ cause, result = .error cause ∧ change cause = failure := by
  cases result <;> simp [Except.mapError]

theorem map_eq_ok_iff {result : Except ε α} {change : α → β} {value : β} :
    result.map change = .ok value ↔ ∃ source, result = .ok source ∧ change source = value := by
  cases result <;> simp [Except.map]

theorem map_map {δ : Type _} (result : Except ε α) (change : α → β) (further : β → δ) :
    (result.map change).map further = result.map fun value => further (change value) := by
  cases result <;> rfl

theorem exists_ok_of_any {result : Except ε α} {holds : α → Bool}
    (evaluated : result.toOption.any holds = true) : ∃ value, result = .ok value ∧ holds value = true := by
  cases result with
  | error failure => cases evaluated
  | ok value => exact ⟨value, rfl, evaluated⟩

theorem foldlM_cons_of_ok {step : β → α → Except ε β} {state next : β} {item : α} {rest : List α}
    (ran : step state item = .ok next) : (item :: rest).foldlM step state = rest.foldlM step next := by
  rw [List.foldlM_cons, ran]
  rfl

theorem forall₂_of_mapM {step : α → Except ε β} {items : List α} {results : List β}
    (ran : items.mapM step = .ok results) : List.Forall₂ (fun item result => step item = .ok result) items results := by
  induction items generalizing results with
  | nil =>
    cases ran
    exact .nil
  | cons item rest ih =>
    rw [List.mapM_cons] at ran
    obtain ⟨first, head, ran⟩ := bind_eq_ok_iff.1 ran
    obtain ⟨others, tail, ran⟩ := bind_eq_ok_iff.1 ran
    obtain rfl : first :: others = results := Except.ok.inj ran
    exact .cons head (ih tail)

theorem mapM_congr {step other : α → Except ε β} {items : List α}
    (same : ∀ item ∈ items, step item = other item) : items.mapM step = items.mapM other := by
  induction items with
  | nil => rfl
  | cons item rest ih =>
    rw [List.mapM_cons, List.mapM_cons, same item List.mem_cons_self,
      ih fun later listed => same later (List.mem_cons_of_mem _ listed)]

theorem exists_error_of_mapM {step : α → Except ε β} {items : List α} {failure : ε}
    (failed : items.mapM step = .error failure) : ∃ item ∈ items, step item = .error failure := by
  induction items with
  | nil => cases failed
  | cons item rest ih =>
    rw [List.mapM_cons] at failed
    rcases bind_eq_error_iff.1 failed with head | ⟨_, _, failed⟩
    · exact ⟨item, List.mem_cons_self, head⟩
    · rcases bind_eq_error_iff.1 failed with tail | ⟨_, _, failed⟩
      · obtain ⟨other, later, stopped⟩ := ih tail
        exact ⟨other, List.mem_cons_of_mem _ later, stopped⟩
      · cases failed

theorem exists_mapM_iff {step : α → Except ε β} {items : List α} :
    (∃ results, items.mapM step = .ok results) ↔ ∀ item ∈ items, ∃ result, step item = .ok result := by
  constructor
  · rintro ⟨results, ran⟩
    have each := forall₂_of_mapM ran
    clear ran
    induction each with
    | nil => simp
    | cons head _ ih => exact List.forall_mem_cons.2 ⟨⟨_, head⟩, ih⟩
  · intro each
    cases ran : items.mapM step with
    | ok results => exact ⟨results, rfl⟩
    | error failure =>
      obtain ⟨item, listed, failed⟩ := exists_error_of_mapM ran
      obtain ⟨result, done⟩ := each item listed
      rw [done] at failed
      cases failed

/-- The failure is that of the first item that fails. -/
theorem mapM_eq_error_iff {step : α → Except ε β} {items : List α} {failure : ε} :
    items.mapM step = .error failure ↔ ∃ before item after, items = before ++ item :: after ∧
      (∀ earlier ∈ before, ∃ result, step earlier = .ok result) ∧ step item = .error failure := by
  constructor
  · intro failed
    induction items with
    | nil => cases failed
    | cons first rest ih =>
      rw [List.mapM_cons] at failed
      rcases bind_eq_error_iff.1 failed with head | ⟨result, done, failed⟩
      · exact ⟨[], first, rest, rfl, by simp, head⟩
      · rcases bind_eq_error_iff.1 failed with tail | ⟨_, _, impossible⟩
        · obtain ⟨before, item, after, rfl, passed, stopped⟩ := ih tail
          exact ⟨first :: before, item, after, rfl, List.forall_mem_cons.2 ⟨⟨result, done⟩, passed⟩, stopped⟩
        · cases impossible
  · rintro ⟨before, item, after, rfl, passed, stopped⟩
    obtain ⟨results, ran⟩ := exists_mapM_iff.2 passed
    rw [List.mapM_append, ran, List.mapM_cons, stopped]
    rfl

/-- What is written item by item is read back item by item. -/
theorem mapM_map_eq_some {γ : Type _} {read : β → Option γ} {write : α → β} (value : α → γ)
    (each : ∀ item, read (write item) = some (value item)) (items : List α) :
    (items.map write).mapM read = some (items.map value) := by
  induction items with
  | nil => rfl
  | cons item rest ih =>
    rw [List.map_cons, List.mapM_cons, each, ih]
    rfl

theorem mapM_eq_none_of_mem {read : α → Option β} {items : List α} {item : α} (listed : item ∈ items)
    (lacks : read item = none) : items.mapM read = none := by
  induction listed with
  | head rest =>
    rw [List.mapM_cons, lacks]
    rfl
  | tail first _ ih =>
    rw [List.mapM_cons, ih]
    cases read first <;> rfl

end BuildPipeline
