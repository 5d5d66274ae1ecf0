import BuildPipeline.Manifest.Basic

/-! Linking checks that every dependency and every root is a key of the table.
Cycles are left for the graph to find. -/

namespace BuildPipeline

inductive LinkFault
  | unknownDependency (owner key : Text)
  | unknownRoot (key : Text)
deriving DecidableEq

namespace LinkFault

def path : LinkFault → Text
  | .unknownDependency owner _ => "specs." ++ owner ++ ".dependencies"
  | .unknownRoot _ => "roots"

def message : LinkFault → Text
  | .unknownDependency _ key => "Unknown dependency: " ++ key
  | .unknownRoot key => "Unknown root spec: " ++ key

end LinkFault

/-- A table of builds in which no reference dangles. -/
structure LinkedStack where
  specs : Table SpecEntry
  roots : List Text
  dependencies_known : ∀ entry ∈ specs.entries, ∀ key ∈ entry.2.dependencies, key ∈ specs.keys
  roots_known : ∀ key ∈ roots, key ∈ specs.keys

namespace LinkedStack

/-- Dependencies as listed; a key without entry has none. -/
def dependenciesOf (stack : LinkedStack) (key : Text) : List Text :=
  ((stack.specs.get? key).map SpecEntry.dependencies).getD []

theorem dependenciesOf_eq {stack : LinkedStack} {key : Text} {entry : SpecEntry}
    (found : stack.specs.get? key = some entry) : stack.dependenciesOf key = entry.dependencies := by
  simp [dependenciesOf, found]

/-- The label of a key's build. -/
def label (stack : LinkedStack) (key : Text) : Text :=
  ((stack.specs.get? key).map fun entry => entry.content.label).getD key

end LinkedStack

namespace StackManifest

def unknownDependencies (manifest : StackManifest) : List LinkFault :=
  manifest.specs.entries.flatMap fun (owner, entry) =>
    (entry.dependencies.filter (· ∉ manifest.specs.keys)).map (.unknownDependency owner)

def unknownRoots (manifest : StackManifest) : List LinkFault :=
  (manifest.roots.filter (· ∉ manifest.specs.keys)).map .unknownRoot

/-- Dangling dependencies of every entry in table order, then dangling roots. -/
def linkFaults (manifest : StackManifest) : List LinkFault :=
  manifest.unknownDependencies ++ manifest.unknownRoots

theorem mem_keys_of_linkFaults_eq_nil {manifest : StackManifest} (clean : manifest.linkFaults = [])
    (entry : Text × SpecEntry) (listed : entry ∈ manifest.specs.entries) (key : Text)
    (dependency : key ∈ entry.2.dependencies) : key ∈ manifest.specs.keys := by
  have none := (List.append_eq_nil_iff.1 clean).1
  have owned := List.flatMap_eq_nil_iff.1 none entry listed
  by_cases known : key ∈ manifest.specs.keys
  · exact known
  · simp only [List.map_eq_nil_iff, List.filter_eq_nil_iff] at owned
    simpa using owned key dependency

theorem roots_mem_keys_of_linkFaults_eq_nil {manifest : StackManifest}
    (clean : manifest.linkFaults = []) (key : Text) (root : key ∈ manifest.roots) :
    key ∈ manifest.specs.keys := by
  have none := (List.append_eq_nil_iff.1 clean).2
  simp only [unknownRoots, List.map_eq_nil_iff, List.filter_eq_nil_iff] at none
  simpa using none key root

def link (manifest : StackManifest) : Except (List LinkFault) LinkedStack :=
  if clean : manifest.linkFaults = [] then
    .ok ⟨manifest.specs, manifest.roots, mem_keys_of_linkFaults_eq_nil clean,
      roots_mem_keys_of_linkFaults_eq_nil clean⟩
  else .error manifest.linkFaults

end StackManifest

end BuildPipeline
