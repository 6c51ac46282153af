import AlgebraicData.Command.Run

/-!
# The command

Reads the files that the arguments name, lets `Invocation.produce` decide, and writes the result.
-/

namespace AlgebraicData.Command

/-- The error that the system reports, as the command words it. -/
def FileError.ofSystem : IO.Error → FileError
  | .noFileOrDirectory _ _ _ => .notFound
  | .inappropriateType _ 21 _ => .isDirectory
  | .inappropriateType _ 20 _ => .notDirectory
  | .invalidArgument _ 36 _ => .nameTooLong
  | error => .other (toString error)

/-- The bytes of an input, or why they cannot be had. -/
def readOrigin (origin : Origin) : IO (Except FileError ByteArray) := do
  try
    let bytes ← match origin with
      | .standardInput => do (← IO.getStdin).readBinToEnd
      | .file path => do (← IO.FS.Handle.mk path .read).readBinToEnd
    return .ok bytes
  catch error =>
    return .error (.ofSystem error)

/-- Write a text where it goes. -/
def writeTo (destination : Destination) (text : String) : IO (Except FileError Unit) := do
  try
    match destination with
    | .standardOutput => (← IO.getStdout).putStr text
    | .file path => IO.FS.writeFile path text
    return .ok ()
  catch error =>
    return .error (.ofSystem error)

/-- Run on the files of the system. -/
def Invocation.execute (invocation : Invocation) : IO UInt32 := do
  let origins := invocation.config.toList.map .file ++ invocation.inputs.map (·.2)
  let contents ← origins.mapM fun origin => do return (origin, ← readOrigin origin)
  let read := fun origin => (contents.lookup origin).getD (.error .notFound)
  match invocation.produce Source.compile Settings.load read with
  | .ok text =>
    match ← writeTo invocation.destination text with
    | .ok () => return 0
    | .error error =>
      IO.eprintln (RunError.file error).report
      return 1
  | .error errors =>
    for error in errors do
      IO.eprintln error.report
    return 1

end AlgebraicData.Command

open AlgebraicData.Command in
/-- The command line. -/
def main (arguments : List String) : IO UInt32 := do
  match Request.ofArguments arguments with
  | .run invocation => invocation.execute
  | request =>
    let outcome := request.perform ⟨[]⟩ .empty
    IO.print outcome.stdout
    for line in outcome.reports do
      IO.eprintln line
    return outcome.exitCode.toUInt32
