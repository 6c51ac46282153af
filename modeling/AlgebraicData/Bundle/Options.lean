/-!
# Options

What a bundle leaves to the choice of its reader.
-/

namespace AlgebraicData

/-- How a fold receives its handlers. -/
inductive HandlerStyle where
  /-- One parameter for each constructor. -/
  | positional
  /-- One object parameter, with a property for each constructor. -/
  | record (handlersName : String)
deriving DecidableEq, Repr

/-- The choices that shape a bundle. -/
structure Options where
  /-- The property that tells the constructors of a sum apart. -/
  tagName : String := "type"
  /-- The name of the first fold; a second one appends `L`. -/
  foldName : String := "fold"
  /-- The parameter for the value that is taken apart. -/
  matcheeName : String := "fa"
  handlerStyle : HandlerStyle := .positional
  emitAccessors : Bool := true
  emitEquality : Bool := true
deriving DecidableEq, Repr

end AlgebraicData
