import BuildPipeline.Spec.Content
import BuildPipeline.Json.Quoted
import BuildPipeline.Fingerprint.Sha256

/-! The fingerprint of a build: the digest of one JSON text that holds its
fields and the fingerprints of its dependencies, with everything in key order. -/

namespace BuildPipeline

/-- Dependencies form a set, listed in order. -/
def dependencySet (hashes : List Text) : List Text :=
  sortTexts (distinct hashes)

namespace SpecContent

def variantJson : VariantValue → Text
  | .text value => Json.quote value
  | .switch value => Json.boolean value
  | .choices values => Json.list (values.map Json.quote)

def compilerJson (compiler : Compiler) : Text :=
  Json.object [("name", Json.quote compiler.name), ("version", Json.quote compiler.version)]

/-- Absent fields are left out; an empty architecture is not absent. -/
def payload (content : SpecContent) (dependencies : List Text) : Text :=
  let arch : List (Text × Text) := content.arch.toList.map fun arch => ("arch", Json.quote arch)
  let compiler : List (Text × Text) :=
    content.compiler.toList.map fun compiler => ("compiler", compilerJson compiler)
  let others : List (Text × Text) :=
    [("dependencies", Json.list ((dependencySet dependencies).map Json.quote)),
     ("external", Json.boolean content.isExternal),
     ("name", Json.quote content.name),
     ("variants", Json.object
       (content.normalizedVariants.sortedEntries.map fun entry => (entry.1, variantJson entry.2))),
     ("version", Json.quote content.version)]
  Json.object (arch ++ compiler ++ others)

end SpecContent

/-- Fingerprints have this many hexadecimal digits. -/
def fingerprintLength : Nat := 32

def fingerprint (payload : Text) : Text :=
  let bytes := (Sha256.digest payload.utf8).take (fingerprintLength / 2)
  bytes.flatMap fun byte => Json.hexDigits 2 byte.toNat

end BuildPipeline
