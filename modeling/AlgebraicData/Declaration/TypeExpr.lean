/-!
# Type expressions

The types that a declaration may write for its members and for the bounds of its parameters.
-/

namespace AlgebraicData

/-- A type as a declaration writes it. -/
inductive TypeExpr where
  /-- A named type applied to its arguments, `T A B`. -/
  | ref (name : String) (args : List TypeExpr)
  /-- `(A, B)`; the grammar writes at least two components. -/
  | tuple (items : List TypeExpr)
  /-- `A -> B`. -/
  | arrow (domain codomain : TypeExpr)
  /-- `()`. -/
  | unit
deriving Repr, Inhabited

namespace TypeExpr

/-- A named type without arguments. -/
def var (name : String) : TypeExpr :=
  .ref name []

/-- The name at the head of a named type. -/
def headName? : TypeExpr → Option String
  | .ref name _ => some name
  | .tuple _ | .arrow _ _ | .unit => none

/-! ## Equality can be decided -/

mutual

/-- Decide whether two types are written alike. -/
def decEq : (a b : TypeExpr) → Decidable (a = b)
  | .ref n as, .ref m bs =>
    if hn : n = m then
      match decEqList as bs with
      | isTrue h => isTrue (by rw [hn, h])
      | isFalse h => isFalse (by intro e; cases e; exact h rfl)
    else isFalse (by intro e; cases e; exact hn rfl)
  | .tuple as, .tuple bs =>
    match decEqList as bs with
    | isTrue h => isTrue (by rw [h])
    | isFalse h => isFalse (by intro e; cases e; exact h rfl)
  | .arrow a b, .arrow c d =>
    match decEq a c, decEq b d with
    | isTrue h, isTrue k => isTrue (by rw [h, k])
    | isFalse h, _ => isFalse (by intro e; cases e; exact h rfl)
    | _, isFalse k => isFalse (by intro e; cases e; exact k rfl)
  | .unit, .unit => isTrue rfl
  | .ref .., .tuple _ | .ref .., .arrow .. | .ref .., .unit
  | .tuple _, .ref .. | .tuple _, .arrow .. | .tuple _, .unit
  | .arrow .., .ref .. | .arrow .., .tuple _ | .arrow .., .unit
  | .unit, .ref .. | .unit, .tuple _ | .unit, .arrow .. => isFalse nofun

/-- Decide whether two lists of types are written alike. -/
def decEqList : (as bs : List TypeExpr) → Decidable (as = bs)
  | [], [] => isTrue rfl
  | a :: as, b :: bs =>
    match decEq a b, decEqList as bs with
    | isTrue h, isTrue k => isTrue (by rw [h, k])
    | isFalse h, _ => isFalse (by intro e; cases e; exact h rfl)
    | _, isFalse k => isFalse (by intro e; cases e; exact k rfl)
  | [], _ :: _ | _ :: _, [] => isFalse nofun

end

instance : DecidableEq TypeExpr :=
  decEq

end TypeExpr

end AlgebraicData
