import AlgebraicData.Bundle.Types

/-!
# The data type and its constructors

A value is an object with a property for each member.  In a sum, a tag property in front tells which
constructor made it.
-/

namespace AlgebraicData.DataType

open Target

/-- The properties of the values of one constructor. -/
def variantProperties (d : Declaration) (options : Options) (c : Constructor) :
    List (Property TypeNode) :=
  let tag : List (Property TypeNode) :=
    if d.isSum then [⟨true, options.tagName, .literal c.name⟩] else []
  tag ++ c.members.zipIdx.map fun (m, position) => ⟨true, m.property position, m.type.toNode⟩

/-- The union of its constructors' object types; one constructor needs no union. -/
def item (d : Declaration) (options : Options) : Item :=
  let variants := d.constructors.map fun c => TypeNode.object (variantProperties d options c)
  let type := match variants with
    | [variant] => variant
    | variants => .union variants
  .typeAlias d.name d.typeParams type

/-- The object that a constructor makes from its parameters. -/
def variantObject (d : Declaration) (options : Options) (c : Constructor) : Expr :=
  let tag : List (Assignment Expr) :=
    if d.isSum then [⟨options.tagName, some (.str c.name)⟩] else []
  .object (tag ++ c.members.zipIdx.map fun (m, position) =>
    let property := m.property position
    let binding := m.binding position
    ⟨property, if binding = property then none else some (.ident binding)⟩)

/-- What makes the values of a constructor: a constant if it has no members, else a function. -/
def constructorItem (d : Declaration) (options : Options) (c : Constructor) (name : String) :
    Item :=
  if c.isNullary then
    .const name d.bottomType (variantObject d options c)
  else
    .function name d.typeParams c.params d.selfType [.ret (variantObject d options c)]

end AlgebraicData.DataType
