import BuildPipeline.Sorting
import BuildPipeline.Text.Blank
import BuildPipeline.Value

/-! Lists of builds given from outside: fingerprints in a file, and changed
builds on the command line. -/

namespace BuildPipeline

/-- Trimmed, without blank members and repeats. -/
def cleanList (texts : List Text) : List Text :=
  distinct ((texts.map Text.trim).filter (· ≠ ""))

/-- Package names or fingerprints between commas. -/
def parseChanged (text : Text) : List Text :=
  cleanList (text.split ',')

/-- A list of texts, or a mapping that has one under `hashes`; nothing at all is
an empty list. -/
def hashList? (value : Value) : Option (List Text) :=
  match value with
  | .null => some []
  | .list _ => value.texts?.map cleanList
  | .mapping _ => ((value.member? "hashes").bind Value.texts?).map cleanList
  | _ => none

end BuildPipeline
