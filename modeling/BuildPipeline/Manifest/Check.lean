import BuildPipeline.Manifest.Fault
import BuildPipeline.Value

/-! The shape that a value must have to be a manifest. A check lists every fault
of a value, an object's own faults before those of its members. -/

namespace BuildPipeline

/-- Faults of the value at a place. -/
abbrev Check := Location → Value → List Fault

namespace Check

def fail (location : Location) (problem : Problem) : List Fault :=
  [⟨location, problem⟩]

def anyText : Check
  | _, .text _ => []
  | location, _ => fail location (.wrongKind .text)

def filledText : Check
  | location, .text value => if value = "" then fail location .emptyText else []
  | location, _ => fail location (.wrongKind .text)

def isNameRest (unit : CodeUnit) : Bool :=
  isAlphanumeric unit || unit = '.' || unit = '_' || unit = '+' || unit = '-'

/-- A letter or digit, then letters, digits and any of `._+-`. -/
def isPackageName (name : Text) : Bool :=
  match name with
  | first :: rest => isAlphanumeric first && rest.all isNameRest
  | [] => false

def packageName : Check
  | location, .text value => if isPackageName value then [] else fail location .illegalName
  | location, _ => fail location (.wrongKind .text)

def boolean : Check
  | _, .boolean _ => []
  | location, _ => fail location (.wrongKind .boolean)

def integer : Check
  | location, .number value => if value.isInteger then [] else fail location (.wrongKind .integer)
  | location, _ => fail location (.wrongKind .integer)

def eachItem (check : Check) (location : Location) (items : List Value) : List Fault :=
  items.zipIdx.flatMap fun (item, index) => check (location ++ [.item index]) item

def list (check : Check) : Check
  | location, .list items => eachItem check location items
  | location, _ => fail location (.wrongKind .array)

def filledList (check : Check) : Check
  | location, .list items =>
    (if items.isEmpty then fail location .emptyList else []) ++ eachItem check location items
  | location, _ => fail location (.wrongKind .array)

def mapOf (check : Check) : Check
  | location, .mapping members =>
    members.flatMap fun (key, value) => check (location ++ [.key key]) value
  | location, _ => fail location (.wrongKind .object)

/-- Members must be among `fields`; those in `required` must be there. -/
def record (required : List Text) (fields : List (Text × Check)) : Check
  | location, .mapping members =>
    let keys := members.map Prod.fst
    let absent := (required.filter (· ∉ keys)).flatMap fun key => fail location (.missingMember key)
    let unknown := (keys.filter (· ∉ fields.map Prod.fst)).flatMap fun _ => fail location .unknownMember
    let known := fields.flatMap fun (key, check) =>
      match members.lookup key with
      | some value => check (location ++ [.key key]) value
      | none => []
    absent ++ unknown ++ known
  | location, _ => fail location (.wrongKind .object)

/-- A text, a switch or a list of texts; a value that is none of them has the
faults of all three. -/
def variantValue : Check
  | _, .text _ => []
  | _, .boolean _ => []
  | location, value =>
    let faults := list anyText location value
    if faults.isEmpty then []
    else fail location (.wrongKind .text) ++ fail location (.wrongKind .boolean) ++ faults ++
      fail location .noAlternative

def variants : Check := mapOf variantValue

def textList : Check := list anyText

def textMap : Check := mapOf anyText

def attributeFields : List (Text × Check) :=
  [("tags", textList), ("variables", textMap), ("orderHint", integer), ("allowFailure", boolean)]

def compiler : Check :=
  record ["name", "version"] [("name", filledText), ("version", filledText)]

def specEntry : Check :=
  record ["name", "version"]
    [("name", packageName), ("version", filledText), ("variants", variants), ("compiler", compiler),
     ("arch", filledText), ("external", boolean), ("dependencies", textList)]

def ruleMatch : Check :=
  record []
    [("package", filledText), ("version", filledText), ("compiler", filledText), ("arch", filledText),
     ("variants", variants)]

def rule : Check :=
  record [] (("match", ruleMatch) :: attributeFields)

def ciConfig : Check :=
  record []
    [("target", filledText), ("defaults", record [] attributeFields), ("rules", list rule),
     ("script", textList), ("beforeScript", textList), ("image", anyText), ("rebuildIndex", boolean),
     ("indexScript", textList), ("variables", textMap), ("artifactsRoot", filledText),
     ("pruneUpToDate", boolean), ("pruneBroken", boolean), ("pruneExternal", boolean),
     ("affectedOnly", boolean)]

def manifest : Check :=
  record ["name", "roots", "specs"]
    [("name", filledText), ("roots", filledList anyText), ("specs", mapOf specEntry), ("ci", ciConfig)]

end Check

/-- All faults of a value read as a manifest; none for a well-formed one. -/
def manifestFaults (value : Value) : List Fault :=
  Check.manifest [] value

end BuildPipeline
