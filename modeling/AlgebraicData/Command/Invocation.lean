import AlgebraicData.Settings.Basic

/-!
# Command lines

What the arguments of a command line ask for.  Arguments are read from left to right, and the first
one that is wrong, or asks for the version or for help, decides.
-/

namespace AlgebraicData.Command

/-- A run that the arguments describe. -/
structure Invocation where
  /-- The files to compile, in order. -/
  files : List String := []
  config : Option String := none
  output : Option String := none
  /-- The settings of the command line itself. -/
  settings : Settings := {}
  verbose : Bool := false
deriving DecidableEq, Repr

/-- What a command line asks for. -/
inductive Request where
  | run (invocation : Invocation)
  | version
  | help
  /-- The arguments make no sense. -/
  | unusable
deriving DecidableEq, Repr

/-! ## Options -/

/-- The options that take a value. -/
inductive ValueOption where
  | config
  | output
  | tagName
  | foldName
  | matcheeName
  | handlersName
deriving DecidableEq, Repr

/-- The options that take none. -/
inductive Flag where
  | noAccessors
  | noEquality
  | verbose
deriving DecidableEq, Repr

/-- What the name of an option stands for. -/
inductive OptionName where
  | value (option : ValueOption)
  | flag (flag : Flag)
  | version
  | help
deriving DecidableEq, Repr

/-- The options with a long name, after `--`. -/
def longNames : List (String × OptionName) := [
  ("config", .value .config), ("output", .value .output), ("tag-name", .value .tagName),
  ("fold-prefix", .value .foldName), ("matchee-name", .value .matcheeName),
  ("handlers-name", .value .handlersName), ("no-accessors", .flag .noAccessors),
  ("no-equality", .flag .noEquality), ("verbose", .flag .verbose), ("version", .version),
  ("help", .help)]

/-- The options with a short name, after `-`. -/
def shortNames : List (Char × OptionName) := [
  ('c', .value .config), ('o', .value .output), ('v', .flag .verbose), ('V', .version),
  ('h', .help)]

namespace Invocation

/-- Add a file, which must have a name. -/
def addFile (invocation : Invocation) (file : String) : Option Invocation :=
  if file = "" then none else some { invocation with files := invocation.files ++ [file] }

/-- A value for something that has none yet. -/
def once {α : Type} (current : Option α) (value : α) : Option (Option α) :=
  if current.isNone then some (some value) else none

/-- Give an option its value.  It must be the first one, and a path must not be empty. -/
def setValue (invocation : Invocation) (option : ValueOption) (value : String) :
    Option Invocation :=
  let settings := invocation.settings
  match option with
  | .config => do
    guard (value ≠ "")
    return { invocation with config := ← once invocation.config value }
  | .output => do
    guard (value ≠ "")
    return { invocation with output := ← once invocation.output value }
  | .tagName => do
    return { invocation with
      settings := { settings with tagName := ← once settings.tagName value } }
  | .foldName => do
    return { invocation with
      settings := { settings with foldName := ← once settings.foldName value } }
  | .matcheeName => do
    return { invocation with
      settings := { settings with matcheeName := ← once settings.matcheeName value } }
  | .handlersName => do
    return { invocation with
      settings := { settings with handlersName := ← once settings.handlersName value } }

/-- Set a flag that is not set yet. -/
def setFlag (invocation : Invocation) (flag : Flag) : Option Invocation :=
  let settings := invocation.settings
  match flag with
  | .noAccessors => do
    return { invocation with
      settings := { settings with emitAccessors := ← once settings.emitAccessors false } }
  | .noEquality => do
    return { invocation with
      settings := { settings with emitEquality := ← once settings.emitEquality false } }
  | .verbose => if invocation.verbose then none else some { invocation with verbose := true }

end Invocation

/-! ## Arguments -/

/-- What one argument does. -/
inductive Step where
  /-- It is complete. -/
  | done (invocation : Invocation)
  /-- The next argument is the value of an option. -/
  | needsValue (invocation : Invocation) (option : ValueOption)
  /-- It settles the request. -/
  | settled (request : Request)

/-- Go on if all is well. -/
def Step.ofOption : Option Invocation → Step
  | some invocation => .done invocation
  | none => .settled .unusable

/-- An argument that begins with `--`, which is cut off: `name` or `name=value`. -/
def longStep (invocation : Invocation) (text : List Char) : Step :=
  let name := String.ofList (text.takeWhile (· ≠ '='))
  match longNames.lookup name, text.dropWhile (· ≠ '=') with
  | some (.value option), [] => .needsValue invocation option
  | some (.value option), _ :: value =>
    .ofOption (invocation.setValue option (String.ofList value))
  | some (.flag flag), [] => .ofOption (invocation.setFlag flag)
  | some .version, [] => .settled .version
  | some .help, [] => .settled .help
  | _, _ => .settled .unusable

/-- The value that follows a short option in the same argument, with or without `=`. -/
def attachedValue : List Char → String
  | '=' :: value => String.ofList value
  | value => String.ofList value

/-- An argument that begins with `-`, which is cut off: flags one after another, and at the end
perhaps an option with its value. -/
def shortStep (invocation : Invocation) : List Char → Step
  | [] => .done invocation
  | c :: rest =>
    match shortNames.lookup c with
    | some (.flag flag) =>
      match invocation.setFlag flag with
      | some invocation => shortStep invocation rest
      | none => .settled .unusable
    | some (.value option) =>
      if rest.isEmpty then .needsValue invocation option
      else .ofOption (invocation.setValue option (attachedValue rest))
    | some .version => .settled .version
    | some .help => .settled .help
    | none => .settled .unusable

/-- One argument. -/
def argumentStep (invocation : Invocation) (argument : String) : Step :=
  match argument.toList with
  | '-' :: '-' :: text => longStep invocation text
  | '-' :: c :: text => shortStep invocation (c :: text)
  | _ => .ofOption (invocation.addFile argument)

/-- Whether an argument can be the value of the option before it. -/
def isValue (argument : String) : Bool :=
  match argument.toList with
  | '-' :: _ :: _ => false
  | _ => true

/-- Arguments that are all files. -/
def readFiles (invocation : Invocation) : List String → Request
  | [] => .run invocation
  | file :: files =>
    match invocation.addFile file with
    | some invocation => readFiles invocation files
    | none => .unusable

/-- Arguments after those that gave `invocation`. -/
def readArguments (invocation : Invocation) : List String → Request
  | [] => .run invocation
  | argument :: rest =>
    if argument = "--" then readFiles invocation rest
    else
      match argumentStep invocation argument, rest with
      | .settled request, _ => request
      | .done invocation, rest => readArguments invocation rest
      | .needsValue _ _, [] => .unusable
      | .needsValue invocation option, value :: rest =>
        if isValue value then
          match invocation.setValue option value with
          | some invocation => readArguments invocation rest
          | none => .unusable
        else .unusable

/-- What a command line asks for. -/
def Request.ofArguments (arguments : List String) : Request :=
  readArguments {} arguments

end AlgebraicData.Command
