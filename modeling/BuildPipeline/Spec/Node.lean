import BuildPipeline.Spec.Payload

/-! One build of the graph, known by its fingerprint, and the texts that name it. -/

namespace BuildPipeline

structure SpecNode where
  hash : Text
  name : Text
  version : Text
  variants : Variants
  /-- Where a key is looked up that no variant has. -/
  backing : Option (List Text) := none
  compiler : Option Compiler
  arch : Option Text
  external : Bool
  dependencies : List Text
deriving DecidableEq

namespace SpecNode

/-- An empty architecture is kept out of the node. -/
def ofContent (content : SpecContent) (dependencies : List Text) : SpecNode where
  hash := fingerprint (content.payload dependencies)
  name := content.name
  version := content.version
  variants := content.normalizedVariants
  backing := content.variants.bind Variants.backing
  compiler := content.compiler
  arch := content.arch.filter (· ≠ "")
  external := content.isExternal
  dependencies := dependencySet dependencies

end SpecNode

/-- The first seven digits of a fingerprint. -/
def shortHash (hash : Text) : Text :=
  hash.take 7

def commaList (texts : List Text) : Text :=
  Text.join ", " texts

/-- One variant as build tools print it: `+on`, `~off`, or ` key=value`. -/
def variantText (key : Text) : VariantValue → Text
  | .switch true => "+" ++ key
  | .switch false => "~" ++ key
  | .text value => " " ++ key ++ "=" ++ value
  | .choices values => " " ++ key ++ "=" ++ Text.join "," values

def variantsText (variants : Variants) : Text :=
  Text.trim (variants.sortedEntries.flatMap fun entry => variantText entry.1 entry.2)

namespace SpecNode

/-- The variant under a key, or else what the backing has there: itself under its
own key, and each of its choices under its place. -/
def variant? (node : SpecNode) (key : Text) : Option VariantValue :=
  (node.variants.get? key).or <| node.backing.bind fun choices =>
    if key = backingKey then some (.choices choices)
    else (arrayIndex? key).bind fun place => choices[place]?.map .text

def label (node : SpecNode) : Text :=
  node.name ++ "@" ++ node.version

def compilerSuffix (node : SpecNode) : Text :=
  match node.compiler with
  | some compiler => " %" ++ compiler.name ++ "@" ++ compiler.version
  | none => ""

def hashSuffix (node : SpecNode) : Text :=
  " /" ++ shortHash node.hash

/-- The label with the compiler and the short fingerprint. -/
def fullLabel (node : SpecNode) : Text :=
  node.label ++ node.compilerSuffix ++ node.hashSuffix

/-- By name, then by fingerprint. -/
def le (left right : SpecNode) : Bool :=
  if left.name = right.name then textLe left.hash right.hash else textLe left.name right.name

end SpecNode

end BuildPipeline
