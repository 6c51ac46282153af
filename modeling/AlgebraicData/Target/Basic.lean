/-!
# The tree of the generated code

The part of TypeScript that a bundle is written in: types, expressions, statements and the items of
a module.  A tree says nothing about spaces and lines.
-/

namespace AlgebraicData.Target

/-! ## Types -/

/-- `name: T`, or `name` where the type is inferred. -/
structure Param (τ : Type) where
  name : String
  type : Option τ

/-- `readonly name: T;` inside an object type. -/
structure Property (τ : Type) where
  readonly : Bool
  name : String
  type : τ

/-- A type of the generated code. -/
inductive TypeNode where
  /-- `Name` or `Name<A, B>`. -/
  | ref (name : String) (args : List TypeNode)
  /-- `[A, B]`. -/
  | tuple (items : List TypeNode)
  /-- `(a: A) => B`. -/
  | function (params : List (Param TypeNode)) (result : TypeNode)
  /-- `"Some"`, the type of that one string. -/
  | literal (value : String)
  /-- `{ readonly a: A; }`. -/
  | object (properties : List (Property TypeNode))
  /-- `A | B`. -/
  | union (items : List TypeNode)

/-- A named type without arguments. -/
def TypeNode.named (name : String) : TypeNode :=
  .ref name []

/-- A parameter with its type. -/
def Param.typed (name : String) (type : TypeNode) : Param TypeNode :=
  ⟨name, some type⟩

/-- `A` or `A extends T` where type parameters are declared. -/
structure TypeParam where
  name : String
  bound : Option TypeNode

/-! ## Expressions and statements -/

/-- `name: value` inside an object, or the shorthand `name` for `name: name`. -/
structure Assignment (ε : Type) where
  name : String
  value : Option ε

/-- `case label: body`. -/
structure Case (ε σ : Type) where
  label : ε
  body : σ

/-- The operators between two expressions. -/
inductive BinaryOp where
  /-- `&&`. -/
  | and
  /-- `===`. -/
  | strictEq
deriving DecidableEq, Repr

mutual

/-- An expression of the generated code. -/
inductive Expr where
  | ident (name : String)
  | str (value : String)
  | bool (value : Bool)
  /-- `object.property`. -/
  | member (object : Expr) (property : String)
  /-- `callee(a, b)`. -/
  | call (callee : Expr) (args : List Expr)
  /-- `{ a, b: e }`. -/
  | object (assignments : List (Assignment Expr))
  /-- `(a, b) => e`. -/
  | arrow (params : List String) (result : Expr)
  /-- `(a, b) => { … }`. -/
  | arrowBlock (params : List String) (body : List Stmt)
  | binary (op : BinaryOp) (lhs rhs : Expr)

/-- A statement of the generated code. -/
inductive Stmt where
  /-- `return e;`. -/
  | ret (value : Expr)
  /-- `if (condition) { … }`. -/
  | ifThen (condition : Expr) (body : List Stmt)
  /-- `switch (scrutinee) { case … }`. -/
  | switch (scrutinee : Expr) (cases : List (Case Expr Stmt))
  /-- `const name: T = e;`. -/
  | const (name : String) (type : Option TypeNode) (value : Expr)

end

namespace Expr

/-- `a === b`. -/
def strictEq (lhs rhs : Expr) : Expr :=
  .binary .strictEq lhs rhs

/-- `a && b`. -/
def and (lhs rhs : Expr) : Expr :=
  .binary .and lhs rhs

/-- `a && b && c`, grouped to the left; `true` for nothing. -/
def conjunction : List Expr → Expr
  | [] => .bool true
  | first :: rest => rest.foldl and first

end Expr

/-! ## Items -/

/-- One top-level definition of the generated code. -/
inductive Item where
  /-- `export type Name<A> = T;`. -/
  | typeAlias (name : String) (params : List TypeParam) (type : TypeNode)
  /-- `export const name: T = e;`. -/
  | const (name : String) (type : TypeNode) (value : Expr)
  /-- `export function name<A>(a: T): U { … }`. -/
  | function (name : String) (typeParams : List TypeParam) (params : List (Param TypeNode))
      (result : TypeNode) (body : List Stmt)
  /-- `import { a, b } from "module";`. -/
  | imports (names : List String) (module : String)

end AlgebraicData.Target
