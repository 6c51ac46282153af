/-!
# What a command asks of its surroundings

A command reads whole inputs and writes one text.  How files are found and kept is up to the system
that it runs on, and a `System` says no more than what reading and writing do there.
-/

namespace AlgebraicData.Command

/-- Why something could not be read or written. -/
inductive FileError where
  | notFound
  | isDirectory
  | notDirectory
  | nameTooLong
  | notText
  | other (description : String)
deriving DecidableEq, Repr

/-- The error in words. -/
def FileError.message : FileError → String
  | .notFound => "No such file or directory (os error 2)"
  | .isDirectory => "Is a directory (os error 21)"
  | .notDirectory => "Not a directory (os error 20)"
  | .nameTooLong => "File name too long (os error 36)"
  | .notText => "stream did not contain valid UTF-8"
  | .other description => description

/-- The text that bytes encode. -/
def decodeText (bytes : ByteArray) : Except FileError String :=
  match String.fromUTF8? bytes with
  | some text => .ok text
  | none => .error .notText

/-- Where an input comes from. -/
inductive Origin where
  | standardInput
  | file (path : String)
deriving DecidableEq, Repr

/-- Where a text goes. -/
inductive Destination where
  | standardOutput
  | file (path : String)
deriving DecidableEq, Repr

/-- A system that a command can run on.  All that writing changes is in its state. -/
structure System (σ : Type) where
  /-- The bytes of an input, or why they cannot be had. -/
  read : Origin → σ → Except FileError ByteArray
  /-- Put a text on standard output, or into a file in place of what it held.  The state is that
  afterwards, also where something went wrong. -/
  write : Destination → String → σ → Except FileError Unit × σ

end AlgebraicData.Command
