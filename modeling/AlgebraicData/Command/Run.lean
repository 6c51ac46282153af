import AlgebraicData.Bundle.Source
import AlgebraicData.Command.Invocation
import AlgebraicData.Command.Session
import AlgebraicData.Settings.Reader

/-!
# Runs

A run reads its settings and all its sources, compiles every source, and writes the bundles only if
all of them compiled.
-/

namespace AlgebraicData.Command

/-- Why a run stopped. -/
inductive RunError where
  | file (error : FileError)
  /-- The document sets no options; the description says what is wrong with it. -/
  | settings (description : String)
  | source (failure : SourceFailure)

/-- The error in words. -/
def RunError.message : RunError → String
  | .file error => "IO error: " ++ error.message
  | .settings description => "invalid configuration: " ++ description
  | .source failure => failure.message

/-- The line that reports an error. -/
def RunError.report (error : RunError) : String :=
  "error: " ++ error.message

/-! ## Reading -/

/-- How a run gets the bytes of its inputs. -/
abbrev Reader :=
  Origin → Except FileError ByteArray

/-- How the text of a document gives settings, or a description of what is wrong with it. -/
abbrev Loader :=
  String → Except String Settings

/-- The text of an input. -/
def readText (read : Reader) (origin : Origin) : Except RunError String :=
  (read origin >>= decodeText).mapError .file

namespace Invocation

/-- The settings of the configuration file, if there is one. -/
def readSettings (invocation : Invocation) (load : Loader) (read : Reader) :
    Except RunError Settings :=
  match invocation.config with
  | none => .ok {}
  | some path => do
    let text ← readText read (.file path)
    (load text).mapError .settings

/-- The inputs that hold sources, with their names: the files in order, or the standard input if
there are none. -/
def inputs (invocation : Invocation) : List (String × Origin) :=
  if invocation.files.isEmpty then [("<stdin>", .standardInput)]
  else invocation.files.map fun path => (path, .file path)

/-- The sources in order. -/
def readSources (invocation : Invocation) (read : Reader) : Except RunError (List Source) :=
  invocation.inputs.mapM fun (name, origin) => do return ⟨name, ← readText read origin⟩

end Invocation

/-! ## Compiling -/

/-- The errors of the sources that did not compile. -/
def compileErrors (results : List (Except SourceFailure String)) : List RunError :=
  results.filterMap fun
    | .ok _ => none
    | .error failure => some (.source failure)

/-- The bundles of the sources that compiled. -/
def compiledTexts (results : List (Except SourceFailure String)) : List String :=
  results.filterMap fun
    | .ok text => some text
    | .error _ => none

/-- How a source is compiled. -/
abbrev Compiler :=
  Source → Options → Except SourceFailure String

/-- All bundles in one text, if every source compiles; else every error. -/
def compileAll (compile : Compiler) (sources : List Source) (options : Options) :
    Except (List RunError) String :=
  let results := sources.map (compile · options)
  match compileErrors results with
  | [] => .ok ("\n\n".intercalate (compiledTexts results) ++ "\n")
  | errors => .error errors

/-- The text that a run writes, or the errors that it reports. -/
def Invocation.produce (invocation : Invocation) (compile : Compiler) (load : Loader)
    (read : Reader) : Except (List RunError) String := do
  let settings ← (invocation.readSettings load read).mapError ([·])
  let sources ← (invocation.readSources read).mapError ([·])
  compileAll compile sources (settings.merge invocation.settings).toOptions

/-! ## Outcomes -/

/-- What a run leaves behind. -/
structure Outcome (σ : Type) where
  exitCode : Nat
  /-- The lines on standard error. -/
  reports : List String
  /-- The state of the system, with all that was written. -/
  state : σ

namespace Invocation

variable {σ : Type}

/-- Where the text of a run goes. -/
def destination (invocation : Invocation) : Destination :=
  match invocation.output with
  | none => .standardOutput
  | some path => .file path

/-- Write the text of a run where it belongs. -/
def deliver (invocation : Invocation) (system : System σ) (text : String) (state : σ) :
    Outcome σ :=
  match system.write invocation.destination text state with
  | (.ok (), state) => ⟨0, [], state⟩
  | (.error error, state) => ⟨1, [(RunError.file error).report], state⟩

/-- Run on a system with a compiler. -/
def runWith (invocation : Invocation) (compile : Compiler) (load : Loader) (system : System σ)
    (state : σ) : Outcome σ :=
  match invocation.produce compile load (system.read · state) with
  | .ok text => invocation.deliver system text state
  | .error errors => ⟨1, errors.map (·.report), state⟩

/-- Run on a system. -/
def run (invocation : Invocation) (load : Loader) (system : System σ) (state : σ) : Outcome σ :=
  invocation.runWith Source.compile load system state

end Invocation

/-! ## Requests -/

/-- The version line. -/
def versionText : String :=
  "adtc 0.1.0\n"

/-- How the command is used. -/
def helpText : String :=
  String.join ([
    "Usage: adtc [OPTIONS] [FILE]...",
    "",
    "Files hold one declaration each; standard input is read when there are none.",
    "",
    "Options:",
    "  -c, --config <PATH>         TOML settings; options here win over its keys",
    "      --tag-name <NAME>       Property that tells constructors apart",
    "      --fold-prefix <NAME>    Name of the eager fold",
    "      --matchee-name <NAME>   Parameter for the value taken apart",
    "      --handlers-name <NAME>  Pass handlers as one object with this name",
    "      --no-accessors          Leave out the accessors",
    "      --no-equality           Leave out the equality",
    "  -o, --output <OUT>          Write here instead of standard output",
    "  -v, --verbose               Say more",
    "  -h, --help                  Print help",
    "  -V, --version               Print version"].map (· ++ "\n"))

/-- Do what a command line asks for, in a directory of its own. -/
def Request.perform (request : Request) (directory : Directory) (stdin : ByteArray) :
    Outcome Session :=
  let session : Session := { tree := .ofDirectory directory, stdin }
  match request with
  | .run invocation => invocation.run Settings.load Session.system session
  | .version => ⟨0, [], { session with stdout := versionText }⟩
  | .help => ⟨0, [], { session with stdout := helpText }⟩
  | .unusable => ⟨2, ["error: unusable arguments; see --help"], session⟩

/-- What was printed. -/
def Outcome.stdout (outcome : Outcome Session) : String :=
  outcome.state.stdout

/-- The working directory afterwards. -/
def Outcome.directory (outcome : Outcome Session) : Directory :=
  outcome.state.tree.directory

end AlgebraicData.Command
