import Mathlib
import AlgebraicData.Bundle.Types
import AlgebraicData.Proofs.Target.Occurrence

/-!
# What occurs in the generated types

A type of a declaration is rewritten node by node, so its counterpart in the generated code holds
references, tuples and functions only, and refers to the same names (`refersTo_toNode_iff`).  The
one name of its own is `undefined`, which stands for `()`; with it, the names are listed by
`writtenNames`.
-/

namespace AlgebraicData

open Target

namespace TypeExpr

/-- Induction over a type, where a list of types is as good as all its members. -/
theorem induct {motive : TypeExpr → Prop}
    (ref : ∀ name args, (∀ arg ∈ args, motive arg) → motive (.ref name args))
    (tuple : ∀ items, (∀ item ∈ items, motive item) → motive (.tuple items))
    (arrow : ∀ domain codomain, motive domain → motive codomain →
      motive (.arrow domain codomain))
    (unit : motive .unit) (type : TypeExpr) : motive type := by
  refine @TypeExpr.rec motive (fun types => ∀ type ∈ types, motive type) ref tuple arrow unit
    (List.forall_mem_nil _) (fun _ _ htype htypes => ?_) type
  exact List.forall_mem_cons.mpr ⟨htype, htypes⟩

theorem toNodes_eq_map (types : List TypeExpr) : toNodes types = types.map toNode := by
  induction types with
  | nil => rfl
  | cons type types ih => rw [toNodes, ih, List.map_cons]

/-- The types of the parameters in the generated function type. -/
theorem filterMap_domain (domain : TypeExpr) :
    ((domain.paramName?.map fun name => Param.typed name domain.toNode).toList).filterMap
      (·.type) = if domain = .unit then [] else [domain.toNode] := by
  cases domain <;> rfl

/-- What holds of all references, tuples and functions holds of all that a type is made of. -/
theorem everywhere_toNode {P : Node → Prop} (href : ∀ name args, P (.type (.ref name args)))
    (htuple : ∀ items, P (.type (.tuple items)))
    (hfunction : ∀ params result, P (.type (.function params result))) (type : TypeExpr) :
    Node.Everywhere P (.type type.toNode) := by
  induction type using induct with
  | ref name args ih =>
    rw [toNode, toNodes_eq_map, Node.everywhere_ref, List.forall_mem_map]
    exact ⟨href _ _, ih⟩
  | tuple items ih =>
    rw [toNode, toNodes_eq_map, Node.everywhere_tuple, List.forall_mem_map]
    exact ⟨htuple _, ih⟩
  | arrow domain codomain ih ih' =>
    rw [toNode, Node.everywhere_function]
    refine ⟨hfunction _ _, ?_, ih'⟩
    cases domain.paramName? with
    | none => exact List.forall_mem_nil _
    | some name => simpa [Param.typed] using ih
  | unit => exact Node.everywhere_ref.mpr ⟨href _ _, List.forall_mem_nil _⟩

/-! ## References -/

mutual

/-- The names that the type refers to, at any depth. -/
def references : TypeExpr → List String
  | .ref name args => name :: referencesOf args
  | .tuple items => referencesOf items
  | .arrow domain codomain => domain.references ++ codomain.references
  | .unit => []

/-- The names that the types of a list refer to. -/
def referencesOf : List TypeExpr → List String
  | [] => []
  | type :: types => type.references ++ referencesOf types

end

theorem mem_referencesOf {name : String} {types : List TypeExpr} :
    name ∈ referencesOf types ↔ ∃ type ∈ types, name ∈ type.references := by
  induction types with
  | nil => simp [referencesOf]
  | cons type types ih => simp [referencesOf, ih]

mutual

/-- The names that the type refers to as it is written in the generated code, `undefined` included.
The domain of a function from `()` is not written. -/
def writtenNames : TypeExpr → List String
  | .ref name args => name :: writtenNamesOf args
  | .tuple items => writtenNamesOf items
  | .arrow domain codomain =>
    (if domain = .unit then [] else domain.writtenNames) ++ codomain.writtenNames
  | .unit => ["undefined"]

/-- The names that the types of a list refer to as they are written. -/
def writtenNamesOf : List TypeExpr → List String
  | [] => []
  | type :: types => type.writtenNames ++ writtenNamesOf types

end

theorem mem_writtenNamesOf {name : String} {types : List TypeExpr} :
    name ∈ writtenNamesOf types ↔ ∃ type ∈ types, name ∈ type.writtenNames := by
  induction types with
  | nil => simp [writtenNamesOf]
  | cons type types ih => simp [writtenNamesOf, ih]

theorem refersTo_toNode_iff_mem_writtenNames {name : String} (type : TypeExpr) :
    type.toNode.RefersTo name ↔ name ∈ type.writtenNames := by
  induction type using induct with
  | ref head args ih =>
    rw [toNode, toNodes_eq_map, TypeNode.refersTo_ref, writtenNames, List.mem_cons,
      mem_writtenNamesOf]
    simp only [List.mem_map, exists_exists_and_eq_and]
    exact or_congr eq_comm (exists_congr fun arg => and_congr_right (ih arg))
  | tuple items ih =>
    rw [toNode, toNodes_eq_map, TypeNode.refersTo_tuple, writtenNames, mem_writtenNamesOf]
    simp only [List.mem_map, exists_exists_and_eq_and]
    exact exists_congr fun item => and_congr_right (ih item)
  | arrow domain codomain ih ih' =>
    rw [toNode, TypeNode.refersTo_function, filterMap_domain, writtenNames, List.mem_append, ih']
    split
    · simp
    · simp [ih]
  | unit => simp [toNode, TypeNode.named, TypeNode.refersTo_ref, writtenNames, eq_comm]

/-- Only `undefined` is written without being referred to. -/
theorem mem_writtenNames_iff {name : String} (hname : name ≠ "undefined") (type : TypeExpr) :
    name ∈ type.writtenNames ↔ name ∈ type.references := by
  induction type using induct with
  | ref head args ih =>
    rw [writtenNames, references, List.mem_cons, List.mem_cons, mem_writtenNamesOf,
      mem_referencesOf]
    exact or_congr_right (exists_congr fun arg => and_congr_right (ih arg))
  | tuple items ih =>
    rw [writtenNames, references, mem_writtenNamesOf, mem_referencesOf]
    exact exists_congr fun item => and_congr_right (ih item)
  | arrow domain codomain ih ih' =>
    rw [writtenNames, references, List.mem_append, List.mem_append, ih']
    split
    · rename_i hunit
      simp [hunit, references]
    · rw [ih]
  | unit => simp [writtenNames, references, hname]

/-- The generated type refers to the names that the type refers to. -/
theorem refersTo_toNode_iff {name : String} (hname : name ≠ "undefined") (type : TypeExpr) :
    type.toNode.RefersTo name ↔ name ∈ type.references :=
  (refersTo_toNode_iff_mem_writtenNames type).trans (mem_writtenNames_iff hname type)

end TypeExpr

end AlgebraicData
