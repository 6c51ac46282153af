import AlgebraicData.Grammar.Token
import AlgebraicData.Declaration.TypeExpr

/-!
# The grammar of types

    type        := (application | atom) "->" type | application | atom
    application := identifier atom*
    atom        := identifier | "(" ")" | "(" type ")" | "(" type ("," type)+ ")"

Application binds tighter than `->`, and `->` groups to the right.  Each construct is first written
over an unknown rule for types, which stands where a type is nested in another; `typeExpr` closes
the circle.
-/

namespace AlgebraicData

namespace Grammar

open Rule Token

/-! ## Over a rule for nested types -/

/-- The type that a parenthesized list writes: a single type stands for itself. -/
def ofComponents : List TypeExpr → TypeExpr
  | [] => .unit
  | [type] => type
  | types => .tuple types

/-- `()`, `(T)` or `(A, B)`. -/
def parenthesizedOver (type : Rule TypeExpr) : Rule TypeExpr :=
  expected "a tuple" do
    let _ ← symbol "("
    let types ← sepBy (symbol ",") type
    let _ ← symbol ")"
    return ofComponents types

/-- A named type without arguments. -/
def typeName : Rule TypeExpr := do
  return .var (← identifier)

/-- A type that needs no parentheses where it stands. -/
def atomOver (type : Rule TypeExpr) : Rule TypeExpr :=
  choice [typeName, parenthesizedOver type]

/-- `T A B`. -/
def applicationOver (type : Rule TypeExpr) : Rule TypeExpr := do
  let name ← identifier
  let args ← many (atomOver type)
  return .ref name args

/-- The function type from `domain` if an arrow follows, else `domain`.  After an arrow there must be
a type. -/
def arrowTailOver (type : Rule TypeExpr) (domain : TypeExpr) : Rule TypeExpr := do
  match ← maybe (symbol "->") with
  | some _ =>
    let codomain ← expected "a function type" type
    return .arrow domain codomain
  | none => return domain

/-- Any type. -/
def typeExprOver (type : Rule TypeExpr) : Rule TypeExpr := do
  let domain ← choice [applicationOver type, atomOver type]
  arrowTailOver type domain

/-! ## The rules -/

/-- Any type. -/
def typeExpr : Rule TypeExpr :=
  recursive typeExprOver

/-- `()`, `(T)` or `(A, B)`. -/
def parenthesized : Rule TypeExpr :=
  parenthesizedOver typeExpr

/-- A type that needs no parentheses where it stands. -/
def atom : Rule TypeExpr :=
  atomOver typeExpr

/-- `T A B`. -/
def application : Rule TypeExpr :=
  applicationOver typeExpr

/-- The function type from `domain` if an arrow follows, else `domain`. -/
def arrowTail (domain : TypeExpr) : Rule TypeExpr :=
  arrowTailOver typeExpr domain

end Grammar

end AlgebraicData
