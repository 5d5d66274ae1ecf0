import BuildPipeline.Text.Basic

/-! Why a text is not a single YAML document that stands for a value. -/

namespace BuildPipeline.Yaml

inductive Fault
  | strayText
  | misplaced
  | severalDocuments
  | badDirective
  | spacing
  | tabIndentation
  | repeatedProperty
  | propertyOrder
  | badIndentation
  | badScalar
  | badEscape
  | badTag
  | badAnchor
  | keyLines
  | keyLength
  | repeatedKey
  | missingValue
  | missingMark
  | unknownAlias
  | aliasCount
  | badMerge
  | nesting
deriving DecidableEq

def Fault.message : Fault → Text
  | .strayText => "text that is no part of the document"
  | .misplaced => "unexpected mark"
  | .severalDocuments => "more than one document"
  | .badDirective => "malformed directive"
  | .spacing => "missing blank"
  | .tabIndentation => "tab as indentation"
  | .repeatedProperty => "repeated tag or anchor"
  | .propertyOrder => "tag or anchor before a mark"
  | .badIndentation => "bad indentation"
  | .badScalar => "malformed scalar"
  | .badEscape => "unknown escape"
  | .badTag => "malformed tag"
  | .badAnchor => "malformed anchor or alias"
  | .keyLines => "key of several lines"
  | .keyLength => "key of more than 1024 units"
  | .repeatedKey => "repeated key"
  | .missingValue => "key without a value"
  | .missingMark => "missing mark or bracket"
  | .unknownAlias => "alias without an anchor"
  | .aliasCount => "too many aliases"
  | .badMerge => "merging something other than a mapping"
  | .nesting => "nested too deeply"

end BuildPipeline.Yaml
