import AlgebraicData.Bundle.Types

/-!
# Accessors

A prism for each constructor of a sum, which picks out the values that the constructor made.
-/

namespace AlgebraicData.Accessor

open Target

/-- Where the prisms come from. -/
def importItem : Item :=
  .imports ["Prism"] "monocle-ts"

/-- The prism for the values with a constructor's tag. -/
def prism (options : Options) (c : Constructor) : Expr :=
  let test := Expr.strictEq (.member (.ident options.matcheeName) options.tagName) (.str c.name)
  .call (.member (.ident "Prism") "fromPredicate") [.arrow [options.matcheeName] test]

/-- The accessor of a constructor: a constant, or a function where there are type parameters. -/
def item (d : Declaration) (options : Options) (c : Constructor) (name : String) : Item :=
  let type := TypeNode.ref "Prism" [d.selfType, d.selfType]
  if d.isPolymorphic then .function name d.typeParams [] type [.ret (prism options c)]
  else .const name type (prism options c)

/-- All accessors. -/
def items (d : Declaration) (options : Options) (names : BundleNames) : List Item :=
  d.constructors.zipWith (item d options) names.accessors

end AlgebraicData.Accessor
