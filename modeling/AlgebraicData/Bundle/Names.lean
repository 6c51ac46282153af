import AlgebraicData.Bundle.Options
import AlgebraicData.Declaration.Basic
import AlgebraicData.Name.Casing
import AlgebraicData.Name.Identifier
import AlgebraicData.Name.Scope

/-!
# The names of a bundle

The names that the generated code binds are all chosen up front, so that no two of them clash: at
the level of the module, the folds and the imported names keep theirs, and what is made from the
names of constructors gives way.
-/

namespace AlgebraicData

/-! ## Members -/

/-- The name of a positional member. -/
def positionalName (position : Nat) : String :=
  "value" ++ position.repr

namespace Member

/-- The property that holds the member: its field name, or `value0`, `value1`, … -/
def property (m : Member) (position : Nat) : String :=
  m.name.getD (positionalName position)

/-- A name for the member that is an identifier. -/
def label (m : Member) (position : Nat) : String :=
  if isIdentifier (m.property position) then m.property position else positionalName position

/-- The parameter that stands for the member. -/
def binding (m : Member) (position : Nat) : String :=
  bindingName (m.label position)

end Member

/-! ## The whole bundle -/

/-- The names that a bundle binds.  The lists follow the constructors of the declaration. -/
structure BundleNames where
  folds : List String
  bindings : List String
  accessors : List String
  handlers : List String
  /-- The type parameter for the result of a fold. -/
  result : String
deriving DecidableEq, Repr

namespace BundleNames

/-- The folds of a sum: with a nullary constructor a second, lazy one. -/
def foldNames (d : Declaration) (options : Options) : List String :=
  if !d.isSum then []
  else if d.hasNullary then [options.foldName, options.foldName ++ "L"]
  else [options.foldName]

/-- Whether the bundle has accessors. -/
def hasAccessors (d : Declaration) (options : Options) : Bool :=
  d.isSum && options.emitAccessors

/-- The names that the bundle imports, and `getEq`. -/
def libraryNames (d : Declaration) (options : Options) : List String :=
  (if hasAccessors d options then ["Prism"] else []) ++
    (if options.emitEquality then ["Eq", "fromEquals", "getEq"] else [])

/-- The wanted name of the binding that builds a constructor's values. -/
def wantedBinding (c : Constructor) : String :=
  bindingName (lowerFirst (identifierName c.name))

/-- The wanted name of the accessor to a constructor's values. -/
def wantedAccessor (c : Constructor) : String :=
  "_" ++ lowerFirst (identifierName c.name)

/-- The wanted name of the handler of a constructor's values. -/
def wantedHandler (c : Constructor) : String :=
  "on" ++ identifierName c.name

/-- The names in use in the module before those of the constructors. -/
def moduleScope (d : Declaration) (options : Options) : Scope :=
  (Scope.takeAll ⟨foldNames d options⟩ (libraryNames d options)).2

/-- The names in use inside a fold before those of the handlers. -/
def foldScope (options : Options) : Scope :=
  let matchee : Scope := ⟨[options.matcheeName]⟩
  match options.handlerStyle with
  | .positional => matchee
  | .record handlersName => (matchee.take handlersName).2

/-- The names of the bundle for a declaration. -/
def choose (d : Declaration) (options : Options) : BundleNames :=
  let (bindings, scope) := (moduleScope d options).takeAll (d.constructors.map wantedBinding)
  { folds := foldNames d options
    bindings
    accessors :=
      if hasAccessors d options then (scope.takeAll (d.constructors.map wantedAccessor)).1 else []
    handlers := ((foldScope options).takeAll (d.constructors.map wantedHandler)).1
    result := Scope.fresh ⟨d.parameters.map (·.name) ++ [d.name]⟩ "R" }

end BundleNames

end AlgebraicData
