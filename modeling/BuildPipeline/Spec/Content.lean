import BuildPipeline.Table

/-! A concrete package build as a manifest lists it. -/

namespace BuildPipeline

inductive VariantValue
  | text (value : Text)
  | switch (value : Bool)
  | choices (values : List Text)
deriving DecidableEq

namespace VariantValue

/-- The order of choices carries no meaning. -/
def normalized : VariantValue → VariantValue
  | .choices values => .choices (sortTexts values)
  | other => other

end VariantValue

abbrev Variants := Table VariantValue

namespace Variants

def normalized (variants : Variants) : Variants :=
  (Table.sorted variants).mapValues VariantValue.normalized

/-- Choices under the key of the backing are no variant, but stand behind them all. -/
def backing (variants : Variants) : Option (List Text) :=
  match variants.get? backingKey with
  | some (.choices values) => some (sortTexts values)
  | _ => none

end Variants

structure Compiler where
  name : Text
  version : Text
deriving DecidableEq

/-- A build's own fields, without its dependencies. -/
structure SpecContent where
  name : Text
  version : Text
  variants : Option Variants := none
  compiler : Option Compiler := none
  arch : Option Text := none
  external : Option Bool := none
deriving DecidableEq

namespace SpecContent

/-- Absent variants are no variants. -/
def normalizedVariants (content : SpecContent) : Variants :=
  (content.variants.getD Table.empty).normalized

def isExternal (content : SpecContent) : Bool :=
  content.external == some true

def label (content : SpecContent) : Text :=
  content.name ++ "@" ++ content.version

end SpecContent

/-- Dependencies are keys of the table that holds the entry. -/
structure SpecEntry where
  content : SpecContent
  dependencies : List Text := []
deriving DecidableEq

end BuildPipeline
