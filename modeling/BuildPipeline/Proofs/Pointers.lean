import BuildPipeline.Manifest.Fault
import BuildPipeline.Proofs.NameShapes
import BuildPipeline.Value

/-! Pointers read back. The steps that a pointer writes down can be told from its text,
and lead down into a value one by one. -/

namespace BuildPipeline

/-- Undoes the escapes `~0` and `~1`. -/
def unescapePointer : Text → Text
  | 0x7E :: 0x30 :: rest => 0x7E :: unescapePointer rest
  | 0x7E :: 0x31 :: rest => 0x2F :: unescapePointer rest
  | unit :: rest => unit :: unescapePointer rest
  | [] => []

/-- What a pointer's steps are called. -/
def pointerNames (pointer : Text) : List Text :=
  if pointer = "/" then [] else (pointer.split '/').tail.map unescapePointer

def Step.name : Step → Text
  | .key name => name
  | .item index => decimal index

/-- The names lead from the first value down to the last, by keys and by indexes. -/
inductive Value.Leads : Value → List Text → Value → Prop
  | here (value : Value) : value.Leads [] value
  | key {members : List (Text × Value)} {name : Text} {item inner : Value} {rest : List Text}
      (listed : (name, item) ∈ members) (below : item.Leads rest inner) : (mapping members).Leads (name :: rest) inner
  | item {items : List Value} {index : Nat} {item inner : Value} {rest : List Text}
      (listed : items[index]? = some item) (below : item.Leads rest inner) :
      (list items).Leads (decimal index :: rest) inner

theorem unescapePointer_escapePointer (key : Text) : unescapePointer (escapePointer key) = key := by
  induction key with
  | nil => rfl
  | cons unit rest ih =>
    rw [escapePointer, List.flatMap_cons, ← escapePointer]
    by_cases tilde : unit = '~'
    · subst tilde
      exact congrArg (0x7E :: ·) ih
    · by_cases slash : unit = '/'
      · subst slash
        exact congrArg (0x2F :: ·) ih
      · rw [if_neg tilde, if_neg slash, List.singleton_append, unescapePointer, ih]
        · exact fun _ same _ => tilde same
        · exact fun _ same _ => tilde same

theorem slash_notMem_escapePointer (key : Text) : (CodeUnit.ofChar '/') ∉ escapePointer key := by
  intro listed
  obtain ⟨unit, -, written⟩ := List.mem_flatMap.1 listed
  split at written
  · exact absurd written (by decide)
  · split at written
    · exact absurd written (by decide)
    next other => exact other (List.mem_singleton.1 written).symm

theorem slash_notMem_token (step : Step) : (CodeUnit.ofChar '/') ∉ step.token := by
  cases step with
  | key name => exact slash_notMem_escapePointer name
  | item index => exact fun listed => absurd (isDigit_of_mem_decimal listed) (by decide)

theorem unescapePointer_of_notMem {text : Text} (plain : (CodeUnit.ofChar '~') ∉ text) : unescapePointer text = text := by
  induction text with
  | nil => rfl
  | cons unit rest ih =>
    rw [List.mem_cons, not_or] at plain
    rw [unescapePointer, ih plain.2]
    · exact fun _ same _ => plain.1 same.symm
    · exact fun _ same _ => plain.1 same.symm

theorem unescapePointer_token (step : Step) : unescapePointer step.token = step.name := by
  cases step with
  | key name => exact unescapePointer_escapePointer name
  | item index =>
    exact unescapePointer_of_notMem fun listed => absurd (isDigit_of_mem_decimal listed) (by decide)

namespace Text

variable {separator : CodeUnit}

/-- A text without separators belongs to the first part. -/
theorem split_append {part rest : Text} (plain : separator ∉ part) :
    (part ++ rest).split separator =
      (part ++ (rest.split separator).head?.getD []) :: (rest.split separator).tail := by
  induction part with
  | nil =>
    cases rest with
    | nil => rfl
    | cons unit rest =>
      rw [List.nil_append, split]
      split
      · rfl
      · split <;> rfl
  | cons unit part ih =>
    rw [List.mem_cons, not_or] at plain
    rw [List.cons_append, split, if_neg (Ne.symm plain.1), ih plain.2]
    rfl

/-- Parts that stand behind a separator each. -/
theorem split_flatMap (parts : List Text) (plain : ∀ part ∈ parts, separator ∉ part) :
    Text.split separator (parts.flatMap (separator :: ·)) = [] :: parts := by
  induction parts with
  | nil => rfl
  | cons part parts ih =>
    rw [List.forall_mem_cons] at plain
    rw [List.flatMap_cons, List.cons_append, split, if_pos rfl, split_append plain.1, ih plain.2]
    simp

end Text

theorem pointer_eq_flatMap {location : Location} (below : location ≠ []) :
    location.pointer = (location.map Step.token).flatMap ((CodeUnit.ofChar '/') :: ·) := by
  rw [Location.pointer, if_neg (by simpa using below), List.flatMap_map]
  rfl

theorem token_eq_nil {step : Step} (empty : step.token = []) : step = .key [] := by
  cases step with
  | key name =>
    have name_empty := unescapePointer_escapePointer name
    rw [show escapePointer name = [] from empty] at name_empty
    rw [← name_empty]
    rfl
  | item index =>
    have digits := Nat.toDigits_ne_nil (b := 10) (n := index)
    exact absurd (List.map_eq_nil_iff.1 empty) digits

/-- A single slash is the whole value's own, unless the only step is an empty key. -/
theorem pointer_ne_slash {location : Location} (below : location ≠ []) (named : location ≠ [.key []]) :
    location.pointer ≠ "/" := by
  rw [pointer_eq_flatMap below]
  intro same
  cases location with
  | nil => exact below rfl
  | cons step rest =>
    obtain ⟨token, others⟩ := List.append_eq_nil_iff.1 (List.cons.inj same).2
    cases rest with
    | nil => exact named (by rw [token_eq_nil token])
    | cons next rest => cases others

theorem pointerNames_pointer {location : Location} (named : location ≠ [.key []]) :
    pointerNames location.pointer = location.map Step.name := by
  by_cases below : location = []
  · subst below
    rfl
  · have plain : ∀ token ∈ location.map Step.token, (CodeUnit.ofChar '/') ∉ token := by
      intro token listed
      obtain ⟨step, -, rfl⟩ := List.mem_map.1 listed
      exact slash_notMem_token step
    rw [pointerNames, if_neg (pointer_ne_slash below named), pointer_eq_flatMap below, Text.split_flatMap _ plain,
      List.tail_cons, List.map_map]
    exact List.map_congr_left fun step _ => unescapePointer_token step

end BuildPipeline
