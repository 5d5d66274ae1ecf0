import BuildPipeline.Platform.Options
import BuildPipeline.Text.Blank

/-! Where options come from: command-line flags first, then the environment, the
manifest, and built-in defaults. -/

namespace BuildPipeline

structure PipelineFlags where
  platform : Option Text := none
  output : Option Text := none
  pruneUpToDate : Option Bool := none
  pruneBroken : Option Bool := none
  pruneExternal : Option Bool := none
  affectedOnly : Option Bool := none
  dependentDepth : Option Text := none
  summary : Option Bool := none
  artifactsRoot : Option Text := none
deriving DecidableEq

/-- Environment variables with their values. -/
abbrev Environment := List (Text × Text)

def upToDateVariable : Text := "STACKCI_PRUNE_UP_TO_DATE"

def untouchedVariable : Text := "STACKCI_PRUNE_UNTOUCHED"

def depthVariable : Text := "STACKCI_PRUNE_UNTOUCHED_DEPENDENT_DEPTH"

inductive Warning
  | unusableSwitch (name value : Text)
  | unusableDepth (value : Text)
  | affectedWithoutChange
deriving DecidableEq

def Warning.message : Warning → Text
  | .unusableSwitch name value =>
    "Warning: ignoring " ++ name ++ "=" ++ value ++ ", expected true or false"
  | .unusableDepth value =>
    "Warning: ignoring " ++ depthVariable ++ "=" ++ value ++ ", expected an integer"
  | .affectedWithoutChange =>
    "Warning: affected-only pruning needs --changed; keeping unaffected specs"

/-- A depth flag that is no integer. -/
structure DepthError where
  given : Text
deriving DecidableEq

def DepthError.message (error : DepthError) : Text :=
  "--dependent-depth must be an integer, got \"" ++ error.given ++ "\""

/-- An optional minus and digits, blanks around them ignored. -/
def parseDepth? (text : Text) : Option Number :=
  let trimmed := text.trim
  let negative := trimmed.head? = some (CodeUnit.ofChar '-')
  let digits := if negative then trimmed.drop 1 else trimmed
  if digits.isEmpty || !digits.all isDigit then none
  else
    let value := Number.ofNat (digitsValue digits)
    some (if negative then value.neg else value)

def onWords : List Text := ["1", "true", "yes", "on"]

def offWords : List Text := ["0", "false", "no", "off"]

/-- A setting together with the warnings that reading it gave. -/
abbrev Consulted (α : Type) := Option α × List Warning

/-- A blank value counts as unset and gives no warning. -/
def readSwitch (name value : Text) : Consulted Bool :=
  let word := value.trim.map lowerUnit
  if word = "" then (none, [])
  else if word ∈ onWords then (some true, [])
  else if word ∈ offWords then (some false, [])
  else (none, [.unusableSwitch name value])

def switchFromEnvironment (environment : Environment) (name : Text) : Consulted Bool :=
  match environment.lookup name with
  | none => (none, [])
  | some value => readSwitch name value

def depthFromEnvironment (environment : Environment) : Consulted Number :=
  match environment.lookup depthVariable with
  | none => (none, [])
  | some value =>
    match parseDepth? value with
    | some depth => (some depth, [])
    | none => (none, [.unusableDepth value])

/-- The environment is looked at only when the flag is not given. -/
def orConsult (flag : Option α) (consulted : Consulted α) : Consulted α :=
  match flag with
  | some value => (some value, [])
  | none => consulted

def defaultPlatform : Text := "gitlab"

def defaultArtifactsRoot : Text := "jobs_scratch_dir"

def selectPlatform (flags : PipelineFlags) (config : CiConfig) : Text :=
  (flags.platform.or config.target).getD defaultPlatform

/-- Options, given the settings that the environment may decide. -/
def optionsWithDepth (flags : PipelineFlags) (config : CiConfig) (defaultOutput : Text)
    (upToDate affectedOnly : Option Bool) (depth : Option Number) : PipelineOptions where
  platform := selectPlatform flags config
  outputPath := flags.output.getD defaultOutput
  pruneUpToDate := (upToDate.or config.pruneUpToDate).getD false
  pruneBroken := (flags.pruneBroken.or config.pruneBroken).getD false
  pruneExternal := (flags.pruneExternal.or config.pruneExternal).getD true
  affectedOnly := (affectedOnly.or config.affectedOnly).getD false
  dependentDepth := depth
  printSummary := flags.summary.getD true
  artifactsRoot := (flags.artifactsRoot.or config.artifactsRoot).getD defaultArtifactsRoot

/-- The depth from its flag, which must be usable, or else from the environment. -/
def settleDepth (flags : PipelineFlags) (environment : Environment) :
    Except DepthError (Consulted Number) :=
  match flags.dependentDepth with
  | none => .ok (depthFromEnvironment environment)
  | some given =>
    match parseDepth? given with
    | some depth => .ok (some depth, [])
    | none => .error ⟨given⟩

/-- Settled options and warnings, those on the depth first. -/
def collectOptions (flags : PipelineFlags) (config : CiConfig) (defaultOutput : Text)
    (environment : Environment) : Except DepthError (PipelineOptions × List Warning) := do
  let (depth, onDepth) ← settleDepth flags environment
  let (upToDate, onUpToDate) :=
    orConsult flags.pruneUpToDate (switchFromEnvironment environment upToDateVariable)
  let (affectedOnly, onAffected) :=
    orConsult flags.affectedOnly (switchFromEnvironment environment untouchedVariable)
  return (optionsWithDepth flags config defaultOutput upToDate affectedOnly depth,
    onDepth ++ onUpToDate ++ onAffected)

end BuildPipeline
