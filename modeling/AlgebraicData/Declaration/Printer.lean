import AlgebraicData.Declaration.Basic
import AlgebraicData.Text.Brace

/-!
# Declarations in their own grammar

Prints a declaration on one line, with one space between tokens and no parentheses that the grammar
does not ask for.
-/

namespace AlgebraicData

namespace TypeExpr

/-- Whether the type needs parentheses where the grammar asks for an atom. -/
def isCompound : TypeExpr → Bool
  | .ref _ args => !args.isEmpty
  | .arrow _ _ => true
  | .tuple _ | .unit => false

/-- Whether the type is a function type. -/
def isArrow : TypeExpr → Bool
  | .arrow _ _ => true
  | .ref _ _ | .tuple _ | .unit => false

/-- Put a text in parentheses if need be. -/
def parenthesizeIf (needed : Bool) (text : String) : String :=
  if needed then "(" ++ text ++ ")" else text

mutual

/-- The type as a declaration writes it. -/
def source : TypeExpr → String
  | .ref name args => name ++ argumentSource args
  | .tuple items => "(" ++ ", ".intercalate (itemSources items) ++ ")"
  | .arrow domain codomain =>
    parenthesizeIf domain.isArrow domain.source ++ " -> " ++ codomain.source
  | .unit => "()"

/-- Each argument after a space, in parentheses unless it is an atom. -/
def argumentSource : List TypeExpr → String
  | [] => ""
  | arg :: args => " " ++ parenthesizeIf arg.isCompound arg.source ++ argumentSource args

/-- Each component of a tuple. -/
def itemSources : List TypeExpr → List String
  | [] => []
  | item :: items => item.source :: itemSources items

end

/-- The type where the grammar asks for an atom. -/
def atomSource (type : TypeExpr) : String :=
  parenthesizeIf type.isCompound type.source

end TypeExpr

/-- `A` or `(A :: T)`. -/
def TypeParameter.source (p : TypeParameter) : String :=
  match p.bound with
  | some bound => "(" ++ p.name ++ " :: " ++ bound.source ++ ")"
  | none => p.name

/-- `name :: T`. -/
def Member.fieldSource (m : Member) : String :=
  m.name.getD "" ++ " :: " ++ m.type.source

/-- `C A B` or `C { a :: A, b :: B }`. -/
def Constructor.source (c : Constructor) : String :=
  if c.isRecord then
    c.name ++ " " ++ inBraces (", ".intercalate (c.members.map (·.fieldSource)))
  else
    c.name ++ String.join (c.members.map fun m => " " ++ m.type.atomSource)

/-- The whole declaration on one line. -/
def Declaration.source (d : Declaration) : String :=
  "data " ++ d.name ++ String.join (d.parameters.map fun p => " " ++ p.source) ++ " = " ++
    " | ".intercalate (d.constructors.map (·.source))

end AlgebraicData
