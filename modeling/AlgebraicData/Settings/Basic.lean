import AlgebraicData.Bundle.Options

/-!
# Settings

Settings are options of which some are left open.  They come in layers, a document and then the
command line, and what a later layer sets wins.
-/

namespace AlgebraicData

/-- The options that a layer sets. -/
structure Settings where
  tagName : Option String := none
  foldName : Option String := none
  matcheeName : Option String := none
  /-- The name of the object of handlers; setting it chooses that style. -/
  handlersName : Option String := none
  emitAccessors : Option Bool := none
  emitEquality : Option Bool := none
deriving DecidableEq, Repr

namespace Settings

/-- One layer over another. -/
def merge (lower upper : Settings) : Settings where
  tagName := upper.tagName <|> lower.tagName
  foldName := upper.foldName <|> lower.foldName
  matcheeName := upper.matcheeName <|> lower.matcheeName
  handlersName := upper.handlersName <|> lower.handlersName
  emitAccessors := upper.emitAccessors <|> lower.emitAccessors
  emitEquality := upper.emitEquality <|> lower.emitEquality

/-- The options, with defaults for what is left open. -/
def toOptions (settings : Settings) : Options :=
  let defaults : Options := {}
  { tagName := settings.tagName.getD defaults.tagName
    foldName := settings.foldName.getD defaults.foldName
    matcheeName := settings.matcheeName.getD defaults.matcheeName
    handlerStyle := (settings.handlersName.map .record).getD defaults.handlerStyle
    emitAccessors := settings.emitAccessors.getD defaults.emitAccessors
    emitEquality := settings.emitEquality.getD defaults.emitEquality }

end Settings

end AlgebraicData
