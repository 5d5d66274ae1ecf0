import BuildPipeline.Manifest.Basic
import BuildPipeline.Value

/-! The manifest that a value describes. Reading is total: a member of another
kind than its field's counts as absent, so a checked value loses nothing. -/

namespace BuildPipeline

namespace Value

def table (read : Value → Option α) (value : Value) : Table α :=
  Table.ofEntries (value.members.filterMap fun member => (read member.2).map (member.1, ·))

def variant? : Value → Option VariantValue
  | .text value => some (.text value)
  | .boolean value => some (.switch value)
  | .list items => some (.choices (items.filterMap text?))
  | _ => none

def memberText (value : Value) (key : Text) : Text :=
  ((value.member? key).bind text?).getD ""

def compiler (value : Value) : Compiler where
  name := value.memberText "name"
  version := value.memberText "version"

def specContent (value : Value) : SpecContent where
  name := value.memberText "name"
  version := value.memberText "version"
  variants := (value.member? "variants").map (table variant?)
  compiler := (value.member? "compiler").map compiler
  arch := (value.member? "arch").bind text?
  external := (value.member? "external").bind boolean?

def specEntry (value : Value) : SpecEntry where
  content := value.specContent
  dependencies := ((value.member? "dependencies").map texts).getD []

def ruleMatch (value : Value) : RuleMatch where
  package := (value.member? "package").bind text?
  version := (value.member? "version").bind text?
  compiler := (value.member? "compiler").bind text?
  arch := (value.member? "arch").bind text?
  variants := (value.member? "variants").map (table variant?)

def ruleAttributes (value : Value) : RuleAttributes where
  tags := (value.member? "tags").map texts
  vars := (value.member? "variables").map (table text?)
  orderHint := (value.member? "orderHint").bind number?
  allowFailure := (value.member? "allowFailure").bind boolean?

def ruleConfig (value : Value) : RuleConfig where
  predicate := (value.member? "match").map ruleMatch
  attributes := value.ruleAttributes

def ciConfig (value : Value) : CiConfig where
  target := (value.member? "target").bind text?
  defaults := (value.member? "defaults").map ruleAttributes
  rules := (value.member? "rules").map fun rules => rules.items.map ruleConfig
  script := (value.member? "script").map texts
  beforeScript := (value.member? "beforeScript").map texts
  image := (value.member? "image").bind text?
  rebuildIndex := (value.member? "rebuildIndex").bind boolean?
  indexScript := (value.member? "indexScript").map texts
  vars := (value.member? "variables").map (table text?)
  artifactsRoot := (value.member? "artifactsRoot").bind text?
  pruneUpToDate := (value.member? "pruneUpToDate").bind boolean?
  pruneBroken := (value.member? "pruneBroken").bind boolean?
  pruneExternal := (value.member? "pruneExternal").bind boolean?
  affectedOnly := (value.member? "affectedOnly").bind boolean?

def manifest (value : Value) : StackManifest where
  name := value.memberText "name"
  roots := ((value.member? "roots").map texts).getD []
  specs := table (some ∘ specEntry) ((value.member? "specs").getD .null)
  ci := (value.member? "ci").map ciConfig

end Value

end BuildPipeline
