import AlgebraicData.Bundle.Names
import AlgebraicData.Target.Basic

/-!
# Types in the generated code

How the types of a declaration, and the declared type itself, are written in the generated code.
-/

namespace AlgebraicData

open Target (TypeNode TypeParam Param)

namespace TypeExpr

/-- The parameter of a function type, named after its type.  A function from `()` takes none. -/
def paramName? : TypeExpr → Option String
  | .ref name _ => some (bindingName (lowerFirst name))
  | .tuple _ => some "tuple"
  | .arrow _ _ => some "f"
  | .unit => none

mutual

/-- The type in the generated code. -/
def toNode : TypeExpr → TypeNode
  | .ref name args => .ref name (toNodes args)
  | .tuple items => .tuple (toNodes items)
  | .arrow domain codomain =>
    .function (((paramName? domain).map fun name => Param.typed name domain.toNode).toList)
      codomain.toNode
  | .unit => .named "undefined"

/-- Each type of a list in the generated code. -/
def toNodes : List TypeExpr → List TypeNode
  | [] => []
  | type :: types => type.toNode :: toNodes types

end

end TypeExpr

namespace Declaration

/-- The type parameters where they are declared. -/
def typeParams (d : Declaration) : List TypeParam :=
  d.parameters.map fun p => ⟨p.name, p.bound.map (·.toNode)⟩

/-- The declared type at its own parameters. -/
def selfType (d : Declaration) : TypeNode :=
  .ref d.name (d.parameters.map fun p => .named p.name)

/-- The declared type with nothing to hold: each parameter at its bound, or at `never`. -/
def bottomType (d : Declaration) : TypeNode :=
  .ref d.name (d.parameters.map fun p => (p.bound.map (·.toNode)).getD (.named "never"))

end Declaration

/-- A parameter for each member of a constructor. -/
def Constructor.params (c : Constructor) : List (Param TypeNode) :=
  c.members.zipIdx.map fun (m, position) => .typed (m.binding position) m.type.toNode

end AlgebraicData
