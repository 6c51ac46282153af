import AlgebraicData.Bundle.Types

/-!
# Equality

Values are equal if the same constructor made them and their members are equal in turn.  How to
compare a member is a parameter, except where its type is the declared type itself.
-/

namespace AlgebraicData.Equality

open Target

/-! ## Names of comparators -/

/-- The wanted name of the comparator of a member. -/
def wantedComparator (d : Declaration) (c : Constructor) (m : Member) (position : Nat) : String :=
  "eq" ++ (if d.isSum then identifierName c.name else "") ++ upperFirst (m.label position)

/-- The wanted comparators of a constructor's members; recursive members need none. -/
def wantedComparators (d : Declaration) (c : Constructor) : List (Option String) :=
  c.members.zipIdx.map fun (m, position) =>
    if d.isRecursiveMember m then none else some (wantedComparator d c m position)

/-- The comparators of every constructor's members. -/
def comparators (d : Declaration) : List (List (Option String)) :=
  (Scope.empty.takeRows (d.constructors.map (wantedComparators d))).1

/-! ## Comparing -/

/-- The name of the equality inside itself. -/
def selfName : String :=
  "S"

/-- `T` gives `Eq<T>`. -/
def eqType (type : TypeNode) : TypeNode :=
  .ref "Eq" [type]

/-- `c.equals(x.p, y.p)`. -/
def compareProperty (comparator property : String) : Expr :=
  .call (.member (.ident comparator) "equals")
    [.member (.ident "x") property, .member (.ident "y") property]

/-- All members of a constructor compared. -/
def compareMembers (c : Constructor) (names : List (Option String)) : Expr :=
  .conjunction ((c.members.zip names).zipIdx.map fun ((m, name), position) =>
    compareProperty (name.getD selfName) (m.property position))

/-- A parameter for each member that is not recursive. -/
def comparatorParams (d : Declaration) : List (Param TypeNode) :=
  (d.constructors.zip (comparators d)).flatMap fun (c, names) =>
    (c.members.zip names).filterMap fun (m, name) =>
      name.map fun name => .typed name (eqType m.type.toNode)

/-- `fromEquals(f)`. -/
def fromEquals (test : Expr) : Expr :=
  .call (.ident "fromEquals") [test]

/-- The tag of the value that a name stands for. -/
def tagOf (options : Options) (name : String) : Expr :=
  .member (.ident name) options.tagName

/-- Two values of the constructor are equal if their members are. -/
def compareVariant (options : Options) (c : Constructor) (names : List (Option String)) : Stmt :=
  let condition := Expr.and (.strictEq (tagOf options "x") (.str c.name))
    (.strictEq (tagOf options "y") (.str c.name))
  .ifThen condition [.ret (compareMembers c names)]

/-- The comparison of two values.  Where no constructor has members, the tags decide alone. -/
def comparison (d : Declaration) (options : Options) : Expr :=
  match d.isEnum, d.isSum with
  | true, true => .arrow ["x", "y"] (.strictEq (tagOf options "x") (tagOf options "y"))
  | true, false => .arrow [] (.bool true)
  | false, true =>
    .arrowBlock ["x", "y"]
      (d.constructors.zipWith (compareVariant options) (comparators d) ++ [.ret (.bool false)])
  | false, false =>
    .arrowBlock ["x", "y"]
      (d.constructors.zipWith (fun c names => .ret (compareMembers c names)) (comparators d))

/-! ## The items -/

/-- Where the equalities come from. -/
def importItem : Item :=
  .imports ["Eq", "fromEquals"] "fp-ts/lib/Eq"

/-- The equality; it has a name for itself if some member is recursive. -/
def item (d : Declaration) (options : Options) : Item :=
  let type := eqType d.selfType
  let equality := fromEquals (comparison d options)
  let body : List Stmt :=
    if d.isRecursive then [.const selfName (some type) equality, .ret (.ident selfName)]
    else [.ret equality]
  .function "getEq" d.typeParams (comparatorParams d) type body

end AlgebraicData.Equality
