import AlgebraicData.Bundle.Basic

/-!
# Named sources

A text with the name that messages call it by.
-/

namespace AlgebraicData

/-- A text and its name. -/
structure Source where
  name : String
  text : String
deriving DecidableEq, Repr

/-- A failure to read a named source, and where it happened. -/
structure SourceFailure where
  source : String
  position : Text.Position
  failure : Failure
deriving DecidableEq, Repr

/-- `name:line:column: …`. -/
def SourceFailure.message (f : SourceFailure) : String :=
  f.source ++ ":" ++ f.position.line.repr ++ ":" ++ f.position.column.repr ++ ": " ++
    f.failure.message

/-- The bundle for the declaration that a source holds. -/
def Source.compile (source : Source) (options : Options) : Except SourceFailure String :=
  (AlgebraicData.compile source.text options).mapError fun failure =>
    ⟨source.name, failure.position source.text.toList, failure⟩

end AlgebraicData
