import AlgebraicData.Declaration.Error
import AlgebraicData.Text.Position
import AlgebraicData.Text.Quoted

/-!
# Failures

A rule of the grammar that cannot read a text says what it looked for and where.  The place is kept
as the text that remained, so that it can be told in bytes, in lines and columns, or by quoting.
-/

namespace AlgebraicData

/-- Why a text could not be read. -/
structure Failure where
  /-- What was looked for. -/
  expected : String
  /-- The text from the place of the failure on. -/
  remaining : List Char
  /-- What is wrong with a declaration that follows the grammar. -/
  reason : Option DeclarationError
deriving DecidableEq, Repr

namespace Failure

/-- Something else than `expected` was found. -/
def mismatch (expected : String) (remaining : List Char) : Failure :=
  ⟨expected, remaining, none⟩

/-- The text follows the grammar and declares nothing sensible. -/
def invalid (error : DeclarationError) (remaining : List Char) : Failure :=
  ⟨error.message, remaining, some error⟩

/-- The failure of a larger construct, at the same place. -/
def relabel (label : String) (failure : Failure) : Failure :=
  { failure with expected := label }

/-- The one of two failures that got further, with fewer bytes left to read; the second when they got
equally far. -/
def furthest (first second : Failure) : Failure :=
  if Text.byteLength first.remaining < Text.byteLength second.remaining then first else second

/-- The failure in words. -/
def message (failure : Failure) : String :=
  let reason := match failure.reason with
    | some error => " (" ++ error.message ++ ")"
    | none => ""
  "Expected " ++ failure.expected ++ ", cannot parse " ++ Text.excerpt failure.remaining ++ reason

/-- The byte at which reading `input` failed. -/
def offset (failure : Failure) (input : List Char) : Nat :=
  Text.byteLength input - Text.byteLength failure.remaining

/-- The line and column at which reading `input` failed; the end of the input if the place is not
between two of its characters. -/
def position (failure : Failure) (input : List Char) : Text.Position :=
  Text.Position.after ((Text.takeBytes? (failure.offset input) input).getD input)

end Failure

end AlgebraicData
