import AlgebraicData.Target.Basic
import AlgebraicData.Target.Layout
import AlgebraicData.Name.Identifier

/-!
# Printing the generated code

How each tree is laid out.  Lines break only inside the braces of object types, functions and
statements, so the text never depends on a line width.
-/

namespace AlgebraicData.Target

open Layout

/-! ## Names and strings -/

/-- The characters that stand for `c` in a string literal. -/
def quoteChar (c : Char) : List Char :=
  if c = '"' then ['\\', '"']
  else if c = '\\' then ['\\', '\\']
  else if c = '\n' then ['\\', 'n']
  else [c]

/-- A string literal. -/
def quote (value : String) : String :=
  String.ofList ('"' :: (value.toList.flatMap quoteChar ++ ['"']))

/-- The key of a property: quoted unless it is an identifier. -/
def propertyKey (name : String) : String :=
  if isIdentifier name then name else quote name

/-! ## Types -/

/-- `<A, B>` after a name, or nothing. -/
def angled : List Layout → Layout
  | [] => []
  | layouts => enclosed "<" ">" (separated ", " layouts)

mutual

/-- How a type is laid out. -/
def TypeNode.layout : TypeNode → Layout
  | .ref name args => text name ++ angled (typeLayouts args)
  | .tuple items => enclosed "[" "]" (separated ", " (typeLayouts items))
  | .function params result =>
    enclosed "(" ")" (separated ", " (paramLayouts params)) ++ text " => " ++ result.layout
  | .literal value => text (quote value)
  | .object properties => block (propertyLayouts properties)
  | .union items => separated " | " (typeLayouts items)

/-- How each type of a list is laid out. -/
def typeLayouts : List TypeNode → List Layout
  | [] => []
  | type :: types => type.layout :: typeLayouts types

/-- How each parameter of a list is laid out. -/
def paramLayouts : List (Param TypeNode) → List Layout
  | [] => []
  | ⟨name, none⟩ :: params => text name :: paramLayouts params
  | ⟨name, some type⟩ :: params =>
    (text name ++ text ": " ++ type.layout) :: paramLayouts params

/-- How each property of an object type is laid out. -/
def propertyLayouts : List (Property TypeNode) → List Layout
  | [] => []
  | ⟨readonly, name, type⟩ :: properties =>
    (text (if readonly then "readonly " else "") ++ text (propertyKey name) ++ text ": " ++
      type.layout ++ text ";") :: propertyLayouts properties

end

/-- How a declared type parameter is laid out. -/
def TypeParam.layout (param : TypeParam) : Layout :=
  match param.bound with
  | some bound => text param.name ++ text " extends " ++ bound.layout
  | none => text param.name

/-! ## Expressions -/

namespace BinaryOp

/-- The operator between spaces. -/
def infixText : BinaryOp → String
  | .and => " && "
  | .strictEq => " === "

/-- How tightly the operator binds. -/
def precedence : BinaryOp → Nat
  | .and => 1
  | .strictEq => 2

end BinaryOp

namespace Expr

/-- Whether the expression needs parentheses as an operand of `op`. -/
def isLooserThan (op : BinaryOp) : Expr → Bool
  | .binary inner _ _ => inner.precedence < op.precedence
  | .arrow _ _ | .arrowBlock _ _ => true
  | _ => false

/-- Whether the expression is an object, whose brace after an arrow would open a block. -/
def isObject : Expr → Bool
  | .object _ => true
  | _ => false

end Expr

/-- `object.name`, or `object["name"]` unless the name is an identifier. -/
def accessText (property : String) : String :=
  if isIdentifier property then "." ++ property else "[" ++ quote property ++ "]"

/-- The parameters of an arrow; a single one needs no parentheses. -/
def arrowHead : List String → String
  | [param] => param
  | params => "(" ++ ", ".intercalate params ++ ")"

/-- `{ a, b: e }` or `{}`. -/
def braced : List Layout → Layout
  | [] => text "{}"
  | layouts => enclosed (openBrace ++ " ") (" " ++ closeBrace) (separated ", " layouts)

/-- `: T` after a name, or nothing. -/
def typeAnnotation : Option TypeNode → Layout
  | some type => text ": " ++ type.layout
  | none => []

mutual

/-- How an expression is laid out. -/
def Expr.layout : Expr → Layout
  | .ident name => text name
  | .str value => text (quote value)
  | .bool value => text (if value then "true" else "false")
  | .member object property => object.layout ++ text (accessText property)
  | .call callee args => callee.layout ++ enclosed "(" ")" (separated ", " (exprLayouts args))
  | .object assignments => braced (assignmentLayouts assignments)
  | .arrow params result =>
    text (arrowHead params) ++ text " => " ++ parenthesizedIf result.isObject result.layout
  | .arrowBlock params body => text (arrowHead params) ++ text " => " ++ block (stmtLayouts body)
  | .binary op lhs rhs =>
    parenthesizedIf (lhs.isLooserThan op) lhs.layout ++ text op.infixText ++
      parenthesizedIf (rhs.isLooserThan op) rhs.layout

/-- How each expression of a list is laid out. -/
def exprLayouts : List Expr → List Layout
  | [] => []
  | expr :: exprs => expr.layout :: exprLayouts exprs

/-- How each entry of an object is laid out. -/
def assignmentLayouts : List (Assignment Expr) → List Layout
  | [] => []
  | ⟨name, none⟩ :: assignments => text name :: assignmentLayouts assignments
  | ⟨name, some value⟩ :: assignments =>
    (text (propertyKey name) ++ text ": " ++ value.layout) :: assignmentLayouts assignments

/-- How a statement is laid out. -/
def Stmt.layout : Stmt → Layout
  | .ret value => text "return " ++ value.layout ++ text ";"
  | .ifThen condition body =>
    enclosed "if (" ") " condition.layout ++ block (stmtLayouts body)
  | .switch scrutinee cases =>
    enclosed "switch (" ") " scrutinee.layout ++ block (caseLayouts cases)
  | .const name type value =>
    text "const " ++ text name ++ typeAnnotation type ++ text " = " ++ value.layout ++ text ";"

/-- How each statement of a list is laid out. -/
def stmtLayouts : List Stmt → List Layout
  | [] => []
  | stmt :: stmts => stmt.layout :: stmtLayouts stmts

/-- How each case of a `switch` is laid out. -/
def caseLayouts : List (Case Expr Stmt) → List Layout
  | [] => []
  | ⟨label, body⟩ :: cases =>
    (enclosed "case " ": " label.layout ++ body.layout) :: caseLayouts cases

end

/-! ## Items -/

/-- How an item is laid out. -/
def Item.layout : Item → Layout
  | .typeAlias name params type =>
    text "export type " ++ text name ++ angled (params.map (·.layout)) ++ text " = " ++
      type.layout ++ text ";"
  | .const name type value =>
    text "export const " ++ text name ++ text ": " ++ type.layout ++ text " = " ++ value.layout ++
      text ";"
  | .function name typeParams params result body =>
    text "export function " ++ text name ++ angled (typeParams.map (·.layout)) ++
      enclosed "(" ")" (separated ", " (paramLayouts params)) ++ text ": " ++ result.layout ++
      text " " ++ block (stmtLayouts body)
  | .imports names module =>
    text ("import " ++ inBraces (", ".intercalate names) ++ " from " ++ quote module ++ ";")

/-- The text of an item, with `indent` spaces for each block. -/
def Item.render (item : Item) (indent : Nat) : String :=
  item.layout.render indent

end AlgebraicData.Target
