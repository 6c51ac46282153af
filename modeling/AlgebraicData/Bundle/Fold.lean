import AlgebraicData.Bundle.Types

/-!
# Folds

A fold takes a value of a sum apart: it hands the members to the handler of the constructor that
made the value.  An eager fold takes the results for nullary constructors as they are, a lazy one
takes functions.
-/

namespace AlgebraicData.Fold

open Target

/-- Whether the handler of a constructor is the result itself. -/
def isPlain (eager : Bool) (c : Constructor) : Bool :=
  eager && c.isNullary

/-- The type of the handler of a constructor. -/
def handlerType (names : BundleNames) (eager : Bool) (c : Constructor) : TypeNode :=
  if isPlain eager c then .named names.result
  else .function c.params (.named names.result)

/-- The parameters of a fold after the value. -/
def handlerParams (d : Declaration) (options : Options) (names : BundleNames) (eager : Bool) :
    List (Param TypeNode) :=
  match options.handlerStyle with
  | .positional =>
    d.constructors.zipWith (fun c handler => .typed handler (handlerType names eager c))
      names.handlers
  | .record handlersName =>
    [.typed handlersName (.object (d.constructors.zipWith
      (fun c handler => ⟨false, handler, handlerType names eager c⟩) names.handlers))]

/-- The expression for the handler with the given name. -/
def handlerExpr (options : Options) (handler : String) : Expr :=
  match options.handlerStyle with
  | .positional => .ident handler
  | .record handlersName => .member (.ident handlersName) handler

/-- The result of a fold for one constructor. -/
def result (options : Options) (eager : Bool) (c : Constructor) (handler : String) : Expr :=
  if isPlain eager c then handlerExpr options handler
  else .call (handlerExpr options handler) (c.members.zipIdx.map fun (m, position) =>
    .member (.ident options.matcheeName) (m.property position))

/-- One fold. -/
def item (d : Declaration) (options : Options) (names : BundleNames) (name : String)
    (eager : Bool) : Item :=
  let cases := d.constructors.zipWith
    (fun c handler => ⟨.str c.name, .ret (result options eager c handler)⟩) names.handlers
  .function name (d.typeParams ++ [⟨names.result, none⟩])
    (.typed options.matcheeName d.selfType :: handlerParams d options names eager)
    (.named names.result)
    [.switch (.member (.ident options.matcheeName) options.tagName) cases]

/-- All folds.  The first is eager if some constructor is nullary, the others are lazy. -/
def items (d : Declaration) (options : Options) (names : BundleNames) : List Item :=
  names.folds.zipIdx.map fun (name, index) =>
    item d options names name (d.hasNullary && index == 0)

end AlgebraicData.Fold
