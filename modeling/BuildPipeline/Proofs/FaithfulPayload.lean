import BuildPipeline.Proofs.Likeness

/-! Payloads as an encoding. Whatever units the fields of a build are made of, its
payload gives back all of them but the order of choices and dependencies. -/

namespace BuildPipeline

/-- One text, one switch, or choices that sort alike. No value of one kind agrees with
one of another. -/
inductive VariantValue.Agrees : VariantValue → VariantValue → Prop
  | text (value : Text) : Agrees (.text value) (.text value)
  | switch (value : Bool) : Agrees (.switch value) (.switch value)
  | choices {left right : List Text} (sorted : sortTexts left = sortTexts right) :
      Agrees (.choices left) (.choices right)

/-- What two builds and their dependencies have in common when one payload tells of both. -/
structure SpecContent.SaysSame (left : SpecContent) (dependencies : List Text) (right : SpecContent)
    (others : List Text) : Prop where
  name : left.name = right.name
  version : left.version = right.version
  arch : left.arch = right.arch
  compiler : left.compiler = right.compiler
  external : left.external = some true ↔ right.external = some true
  variants : ∀ key, Option.Rel VariantValue.Agrees ((left.variants.getD Table.empty).get? key)
    ((right.variants.getD Table.empty).get? key)
  dependencies : ∀ hash, hash ∈ dependencies ↔ hash ∈ others

namespace VariantValue

theorem agrees_iff_normalized_eq {left right : VariantValue} :
    left.Agrees right ↔ left.normalized = right.normalized := by
  constructor
  · intro agrees
    cases agrees with
    | text | switch => rfl
    | choices sorted => exact congrArg VariantValue.choices sorted
  · intro same
    cases left with
    | text value =>
      cases right with
      | text content =>
        obtain rfl := text.inj same
        exact .text value
      | _ => cases same
    | switch value =>
      cases right with
      | switch content =>
        obtain rfl := switch.inj same
        exact .switch value
      | _ => cases same
    | choices values =>
      cases right with
      | choices contents => exact .choices (choices.inj same)
      | _ => cases same

theorem alike_eq_agrees : Alike = Agrees := by
  funext left right
  rw [eq_iff_iff, ← normalized_eq_iff, agrees_iff_normalized_eq]

end VariantValue

namespace SpecContent

variable {left right : SpecContent}

theorem isExternal_eq_iff :
    left.isExternal = right.isExternal ↔ (left.external = some true ↔ right.external = some true) := by
  rw [isExternal, isExternal, Bool.eq_iff_iff, beq_iff_eq, beq_iff_eq]

theorem normalizedVariants_eq_iff (plain : left.Plain) (other : right.Plain) :
    left.normalizedVariants.sortedEntries = right.normalizedVariants.sortedEntries ↔
      ∀ key, Option.Rel VariantValue.Agrees ((left.variants.getD Table.empty).get? key)
        ((right.variants.getD Table.empty).get? key) := by
  rw [← VariantValue.alike_eq_agrees]
  exact Variants.sortedEntries_normalized_eq_iff.trans (Variants.alikeAsKept_iff plain.notMem other.notMem)

/-- Payloads are equal for builds that say the same and for no others. -/
theorem payload_eq_iff_saysSame (plain : left.Plain) (other : right.Plain) (dependencies others : List Text) :
    left.payload dependencies = right.payload others ↔ left.SaysSame dependencies right others := by
  rw [payload_eq_iff, dependencySet_eq_iff]
  constructor
  · rintro ⟨same, set⟩
    exact ⟨same.name, same.version, same.arch, same.compiler, isExternal_eq_iff.1 same.isExternal,
      (normalizedVariants_eq_iff plain other).1 same.variants, set⟩
  · intro same
    exact ⟨⟨same.arch, same.compiler, isExternal_eq_iff.2 same.external, same.name,
      (normalizedVariants_eq_iff plain other).2 same.variants, same.version⟩, same.dependencies⟩

end SpecContent

namespace Lookalikes

/-- A build with one variant, and fields that hold what quotes and escapes are made of. -/
def tool (value : VariantValue) (external : Option Bool) : SpecContent where
  name := "tool\",\"x"
  version := "1\\"
  variants := some ⟨[("mpi", value)], List.nodup_singleton _⟩
  external

/-- A text that reads as the choices between `x` and `y` are written. -/
def written : Text := "[\"x\",\"y\"]"

theorem get?_tool (value : VariantValue) (external : Option Bool) (key : Text) :
    ((tool value external).variants.getD Table.empty).get? key = if key = "mpi" then some value else none :=
  lookup_cons_eq _ _ _

theorem plain_tool (value : VariantValue) (external : Option Bool) : (tool value external).Plain := by
  rintro variants ⟨⟩
  change backingKey ∉ [Text.ofString "mpi"]
  decide

end Lookalikes

open Lookalikes in
theorem SpecContent.payload_eq_iff_saysSame_lookalikes :
    (∀ value external, (tool value external).Plain) ∧
      (tool (.choices ["y", "x"]) none).payload ["b", "a", "b"] =
        (tool (.choices ["x", "y"]) (some false)).payload ["a", "b"] ∧
      (tool (.choices ["x", "y"]) none).payload [] ≠ (tool (.text written) none).payload [] := by
  refine ⟨plain_tool, ?_, ?_⟩
  · refine (payload_eq_iff_saysSame (plain_tool _ _) (plain_tool _ _) _ _).2 ?_
    refine ⟨rfl, rfl, rfl, rfl, by decide, fun key => ?_, fun hash => ?_⟩
    · rw [get?_tool, get?_tool]
      split
      · exact .some (.choices (by decide))
      · exact .none
    · simp only [List.mem_cons, List.not_mem_nil, or_false]
      tauto
  · intro same
    have said := ((payload_eq_iff_saysSame (plain_tool _ _) (plain_tool _ _) _ _).1 same).variants "mpi"
    rw [get?_tool, get?_tool, if_pos rfl, if_pos rfl] at said
    obtain ⟨⟨⟩⟩ := said

end BuildPipeline
