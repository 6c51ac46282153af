/-!
# What can be wrong with a declaration

A text can follow the grammar and still declare nothing sensible, for instance by naming two
constructors alike.
-/

namespace AlgebraicData

/-- Why some parts do not make a declaration. -/
inductive DeclarationError where
  /-- No constructor is declared. -/
  | noConstructors (data : String)
  /-- Two constructors share a name. -/
  | duplicateConstructor (data : String) (constructor : String)
  /-- Two type parameters share a name. -/
  | duplicateParameter (data : String) (parameter : String)
  /-- Some members of a constructor have field names and some have not. -/
  | mixedMembers (constructor : String)
  /-- Two fields of a constructor share a name. -/
  | duplicateField (constructor : String) (field : String)
deriving DecidableEq, Repr

/-- The error in words. -/
def DeclarationError.message : DeclarationError → String
  | .noConstructors data => s!"data `{data}` has no constructors"
  | .duplicateConstructor data constructor =>
    s!"constructor `{constructor}` is declared more than once in `{data}`"
  | .duplicateParameter data parameter =>
    s!"type parameter `{parameter}` is declared more than once in `{data}`"
  | .mixedMembers constructor => s!"constructor `{constructor}` mixes named and positional members"
  | .duplicateField constructor field =>
    s!"field `{field}` is declared more than once in `{constructor}`"

end AlgebraicData
