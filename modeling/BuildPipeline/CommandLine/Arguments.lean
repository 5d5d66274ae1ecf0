import BuildPipeline.Text.Basic

/-! Command-line arguments: options, with or without a value, and operands. A
repeated option overrides the earlier one, and `--no-x` overrides `--x`. -/

namespace BuildPipeline

/-- An option by its name without dashes; one with a value has a name for it too. -/
structure OptionForm where
  name : Text
  argument : Option Text := none
deriving DecidableEq

namespace OptionForm

def long (form : OptionForm) : Text := "--" ++ form.name

/-- As shown to a user. -/
def usage (form : OptionForm) : Text :=
  match form.argument with
  | some argument => form.long ++ " <" ++ argument ++ ">"
  | none => form.long

end OptionForm

/-- An option as given, with its value if it takes one. -/
structure GivenOption where
  name : Text
  value : Option Text
deriving DecidableEq

inductive UsageFault
  | unknownOption (text : Text)
  | unknownCommand (text : Text)
  | missingArgument (form : OptionForm)
deriving DecidableEq

def UsageFault.message : UsageFault → Text
  | .unknownOption text => "error: unknown option '" ++ text ++ "'"
  | .unknownCommand text => "error: unknown command '" ++ text ++ "'"
  | .missingArgument form => "error: option '" ++ form.usage ++ "' argument missing"

/-- Arguments told apart. From the first option that is not known on, everything
that is no option counts as unknown. -/
structure Arguments where
  given : List GivenOption := []
  operands : List Text := []
  unknown : List Text := []
deriving DecidableEq

/-- Longer than one unit, with a dash in front. -/
def looksLikeOption (text : Text) : Bool :=
  1 < text.length && text.head? = some (CodeUnit.ofChar '-')

def isEqualsSign (unit : CodeUnit) : Bool :=
  unit = '='

/-- The option's text and its value around the first equals sign. -/
def splitAssignment? (text : Text) : Option (Text × Text) :=
  let option := text.takeWhile (!isEqualsSign ·)
  match text.dropWhile (!isEqualsSign ·) with
  | _ :: value =>
    if ("--" : Text).isPrefixOf option && 2 < option.length then some (option, value) else none
  | [] => none

/-- The known option that has its value behind an equals sign. -/
def assignedOption? (forms : List OptionForm) (text : Text) : Option GivenOption := do
  let (option, value) ← splitAssignment? text
  let form ← forms.find? fun form => form.long = option && form.argument.isSome
  return ⟨form.name, some value⟩

namespace Arguments

def give (option : GivenOption) (arguments : Arguments) : Arguments :=
  { arguments with given := option :: arguments.given }

/-- Puts a text that is no known option in front. -/
def push (inUnknown : Bool) (text : Text) (arguments : Arguments) : Arguments :=
  if inUnknown then { arguments with unknown := text :: arguments.unknown }
  else { arguments with operands := text :: arguments.operands }

/-- Reads the options of the given forms. A value may look like an option, and
two dashes end the options. -/
def read (forms : List OptionForm) (inUnknown : Bool) : List Text → Except UsageFault Arguments
  | [] => .ok {}
  | text :: rest =>
    if text = "--" then
      .ok (if inUnknown then { unknown := text :: rest } else { operands := rest })
    else
      match forms.find? (·.long = text) with
      | some form =>
        if form.argument.isSome then
          match rest with
          | [] => .error (.missingArgument form)
          | value :: rest => (read forms inUnknown rest).map (give ⟨form.name, some value⟩)
        else (read forms inUnknown rest).map (give ⟨form.name, none⟩)
      | none =>
        match assignedOption? forms text with
        | some option => (read forms inUnknown rest).map (give option)
        | none =>
          let inUnknown := inUnknown || looksLikeOption text
          (read forms inUnknown rest).map (push inUnknown text)

variable (arguments : Arguments)

/-- The last value given. -/
def value? (name : Text) : Option Text :=
  (arguments.given.reverse.find? (·.name = name)).bind GivenOption.value

/-- Given at all. -/
def has (name : Text) : Bool :=
  arguments.given.any (·.name = name)

def negated (name : Text) : Text := "no-" ++ name

/-- What the last of a switch and its negation says. -/
def switch? (name : Text) : Option Bool :=
  (arguments.given.reverse.find? fun option => option.name = name || option.name = negated name).map
    fun option => option.name = name

end Arguments

end BuildPipeline
