import BuildPipeline.Manifest.Basic
import BuildPipeline.Rule.Glob
import BuildPipeline.Rule.Version
import BuildPipeline.Spec.Node

/-! Rules in order of precedence, and which builds they match. A rule with more
constraints wins; among equals the one declared later. -/

namespace BuildPipeline

/-- The defaults have index -1, below every declared rule. -/
structure AttributeRule where
  predicate : RuleMatch
  attributes : RuleAttributes
  specificity : Nat
  index : Int
deriving DecidableEq

namespace RuleMatch

/-- One for each present field and one for each variant. -/
def constraintCount (predicate : RuleMatch) : Nat :=
  (if predicate.package.isSome then 1 else 0) + (if predicate.version.isSome then 1 else 0) +
    (if predicate.compiler.isSome then 1 else 0) + (if predicate.arch.isSome then 1 else 0) +
    (predicate.variants.getD Table.empty).size

end RuleMatch

namespace VariantValue

/-- A single value matches the list that holds it alone. -/
def elements : VariantValue → List VariantValue
  | .choices values => (sortTexts values).map .text
  | single => [single]

end VariantValue

namespace AttributeRule

def precedenceLe (left right : AttributeRule) : Bool :=
  left.specificity < right.specificity ||
    (left.specificity == right.specificity && left.index ≤ right.index)

end AttributeRule

/-- Lowest precedence first. -/
def sortRules (rules : List AttributeRule) : List AttributeRule :=
  sortBy AttributeRule.precedenceLe rules

namespace CiConfig

def declaredRules (config : CiConfig) : List AttributeRule :=
  (config.rules.getD []).zipIdx.map fun (rule, index) =>
    let predicate := rule.predicate.getD {}
    ⟨predicate, rule.attributes, predicate.constraintCount, index⟩

/-- The defaults match every build. -/
def defaultRules (config : CiConfig) : List AttributeRule :=
  (config.defaults.map fun defaults => ⟨{}, defaults, 0, -1⟩).toList

def compileRules (config : CiConfig) : List AttributeRule :=
  sortRules (config.defaultRules ++ config.declaredRules)

end CiConfig

namespace SpecNode

/-- An absent constraint holds. -/
def meets (constraint : Option Text) (holds : Text → Bool) : Bool :=
  (constraint.map holds).getD true

/-- The pattern covers the compiler's name, alone or with its version. -/
def compilerMatches (node : SpecNode) (pattern : Text) : Bool :=
  match node.compiler with
  | none => false
  | some compiler =>
    globMatches pattern compiler.name || globMatches pattern (compiler.name ++ "@" ++ compiler.version)

def archMatches (node : SpecNode) (pattern : Text) : Bool :=
  match node.arch with
  | none => false
  | some arch => globMatches pattern arch

def variantMatches (node : SpecNode) (key : Text) (expected : VariantValue) : Bool :=
  match node.variant? key with
  | none => false
  | some actual => actual.elements = expected.elements

def satisfies (node : SpecNode) (predicate : RuleMatch) : Bool :=
  meets predicate.package (globMatches · node.name) &&
    meets predicate.version (satisfiesRange node.version ·) &&
    meets predicate.compiler node.compilerMatches &&
    meets predicate.arch node.archMatches &&
    (predicate.variants.getD Table.empty).entries.all fun entry => node.variantMatches entry.1 entry.2

end SpecNode

end BuildPipeline
