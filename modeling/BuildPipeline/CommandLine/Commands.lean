import BuildPipeline.Command.Generate
import BuildPipeline.Command.Init
import BuildPipeline.Command.Plan
import BuildPipeline.Command.Verify
import BuildPipeline.CommandLine.Arguments

/-! The commands with their options, and what a whole invocation does. -/

namespace BuildPipeline

def programVersion : Text := "0.1.0"

inductive CommandName
  | init
  | verify
  | plan
  | generate
deriving DecidableEq

namespace CommandName

def all : List CommandName := [.init, .verify, .plan, .generate]

def text : CommandName → Text
  | .init => "init"
  | .verify => "verify"
  | .plan => "plan"
  | .generate => "generate"

def ofText? (text : Text) : Option CommandName :=
  all.find? (·.text = text)

/-- A switch and its negation. -/
def switchForms (name : Text) : List OptionForm :=
  [⟨name, none⟩, ⟨Arguments.negated name, none⟩]

/-- Options of the commands that prepare a pipeline. -/
def pipelineForms : List OptionForm :=
  [⟨"manifest", some "path"⟩, ⟨"platform", some "platform"⟩, ⟨"changed", some "specs"⟩,
   ⟨"available", some "file"⟩, ⟨"broken", some "file"⟩] ++
  switchForms "prune-up-to-date" ++ switchForms "prune-broken" ++ switchForms "prune-externals" ++
  switchForms "affected-only" ++
  [⟨"dependent-depth", some "n"⟩, ⟨"artifacts-root", some "path"⟩]

def forms : CommandName → List OptionForm
  | .init => [⟨"name", some "name"⟩, ⟨"platform", some "platform"⟩, ⟨"yes", none⟩, ⟨"force", none⟩]
  | .verify => [⟨"json", none⟩]
  | .plan => pipelineForms ++ [⟨"json", none⟩]
  | .generate => pipelineForms ++ [⟨"output", some "path"⟩, ⟨"no-summary", none⟩]

/-- How a command is called. -/
def usage (command : CommandName) : Text :=
  let operand := if command = .verify then " [path]" else ""
  "Usage: stackci " ++ command.text ++ " [options]" ++ operand ++ "\n\nOptions:\n" ++
    Text.join "\n" (command.forms.map fun form => "  " ++ form.usage)

end CommandName

def programUsage : Text :=
  "Usage: stackci [options] [command]\n\nCommands:\n" ++
    Text.join "\n" (CommandName.all.map fun command => "  " ++ command.text)

namespace Arguments

def initFlags (arguments : Arguments) : InitFlags where
  name := arguments.value? "name"
  platform := arguments.value? "platform"
  force := arguments.has "force"

def runFlags (arguments : Arguments) : RunFlags where
  platform := arguments.value? "platform"
  output := arguments.value? "output"
  pruneUpToDate := arguments.switch? "prune-up-to-date"
  pruneBroken := arguments.switch? "prune-broken"
  pruneExternal := arguments.switch? "prune-externals"
  affectedOnly := arguments.switch? "affected-only"
  dependentDepth := arguments.value? "dependent-depth"
  summary := arguments.switch? "summary"
  artifactsRoot := arguments.value? "artifacts-root"
  manifest := arguments.value? "manifest"
  changed := arguments.value? "changed"
  available := arguments.value? "available"
  broken := arguments.value? "broken"

end Arguments

/-- What an invocation prints, line by line, and its exit status. -/
structure Invocation where
  output : List Text := []
  notes : List Text := []
  status : Nat := 0
deriving DecidableEq

namespace Invocation

def failed (message : Text) : Invocation :=
  { notes := [message], status := 1 }

end Invocation

/-- A failure is reported below what was printed before. -/
def CommandRun.invocation (passes : α → Bool) (run : CommandRun α) : Invocation :=
  match run.outcome with
  | .ok value => ⟨run.output, run.notes, if passes value then 0 else 1⟩
  | .error failure => ⟨run.output, run.notes ++ ["Error: " ++ failure.message], 1⟩

/-- The clock's time and a tag for temporary files, different in every run. -/
structure RunStamp where
  timestamp : Text
  tag : Text

variable {m : Type → Type} [Monad m] [FileSystem m]

def runCommand (surroundings : Surroundings) (stamp : RunStamp) (command : CommandName)
    (arguments : Arguments) : m Invocation := do
  let directory := surroundings.directory
  match command with
  | .init =>
    return (← runInit Registry.builtin directory arguments.initFlags).invocation fun _ => true
  | .verify =>
    let location := directory.resolve (arguments.operands.head?.getD ".")
    return (← runVerify stamp.timestamp (arguments.has "json") location).invocation Verification.passed
  | .plan =>
    return (← runPlan Registry.builtin surroundings arguments.runFlags (arguments.has "json")).invocation
      fun _ => true
  | .generate =>
    return (← runGenerate Registry.builtin surroundings arguments.runFlags stamp.tag).invocation
      fun _ => true

def asksForHelp (unknown : List Text) : Bool :=
  unknown.any fun text => text = "-h" || text = "--help"

/-- The version may be asked for in any place before two dashes. -/
def asksForVersion (texts : List Text) : Bool :=
  (texts.takeWhile fun (text : Text) => text ≠ "--").any fun text =>
    text = "--version" || ("-V" : Text).isPrefixOf text

/-- Options that are not known fail a command unless they ask for help. -/
def invokeCommand (surroundings : Surroundings) (stamp : RunStamp) (command : CommandName)
    (operands texts : List Text) : m Invocation := do
  match Arguments.read command.forms false texts with
  | .error fault => return .failed fault.message
  | .ok arguments =>
    match arguments.unknown with
    | first :: _ =>
      if asksForHelp arguments.unknown then return { output := [command.usage] }
      else return .failed (UsageFault.unknownOption first).message
    | [] =>
      runCommand surroundings stamp command { arguments with operands := operands ++ arguments.operands }

/-- What is printed when no command is named. -/
def invokeNothing (arguments : Arguments) : Invocation :=
  if asksForHelp arguments.unknown then { output := [programUsage] }
  else
    match arguments.operands, arguments.unknown with
    | operand :: _, _ => .failed (UsageFault.unknownCommand operand).message
    | [], option :: _ => .failed (UsageFault.unknownOption option).message
    | [], [] => .failed programUsage

def helpInvocation (operands : List Text) : Invocation :=
  match operands with
  | [] => { output := [programUsage] }
  | operand :: _ =>
    match CommandName.ofText? operand with
    | some command => { output := [command.usage] }
    | none => .failed programUsage

/-- Runs the program on its arguments. -/
def invoke (surroundings : Surroundings) (stamp : RunStamp) (texts : List Text) : m Invocation := do
  if asksForVersion texts then return { output := [programVersion] }
  else
    match Arguments.read [] false texts with
    | .error fault => return .failed fault.message
    | .ok arguments =>
      match arguments.operands with
      | [] => return invokeNothing arguments
      | first :: operands =>
        match CommandName.ofText? first with
        | some command => invokeCommand surroundings stamp command operands arguments.unknown
        | none => return if first = "help" then helpInvocation operands else invokeNothing arguments

end BuildPipeline
