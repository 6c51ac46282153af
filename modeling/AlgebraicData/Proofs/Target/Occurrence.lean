import Mathlib
import AlgebraicData.Target.Basic

/-!
# What occurs in a tree

Statements about "every object in the bundle" or "every reference at any depth" range over the nodes
of a tree: its types, expressions and statements.

* `Node.children` — the nodes right below a node, and `Item.roots` those at the top of an item;
* `Node.bareNames`, `Item.bareNames` — the names that are written as they stand, level by level;
* `Node.Contains`, `Item.Contains` — the nodes at any depth, the node itself included;
* `Node.Everywhere`, `Item.Everywhere` — a property of all of these.  It is decided one level at a
  time, and there is a rewrite rule for each kind of node.
-/

namespace AlgebraicData.Target

/-! ## Nodes -/

/-- A part of an item. -/
inductive Node where
  | type (type : TypeNode)
  | expr (expr : Expr)
  | stmt (stmt : Stmt)

namespace Node

/-- The nodes right below a node. -/
def children : Node → List Node
  | .type (.ref _ args) => args.map .type
  | .type (.tuple items) => items.map .type
  | .type (.function params result) => (params.filterMap (·.type)).map .type ++ [.type result]
  | .type (.literal _) => []
  | .type (.object properties) => properties.map fun p => .type p.type
  | .type (.union items) => items.map .type
  | .expr (.ident _) | .expr (.str _) | .expr (.bool _) => []
  | .expr (.member object _) => [.expr object]
  | .expr (.call callee args) => .expr callee :: args.map .expr
  | .expr (.object assignments) => (assignments.filterMap (·.value)).map .expr
  | .expr (.arrow _ result) => [.expr result]
  | .expr (.arrowBlock _ body) => body.map .stmt
  | .expr (.binary _ lhs rhs) => [.expr lhs, .expr rhs]
  | .stmt (.ret value) => [.expr value]
  | .stmt (.ifThen condition body) => .expr condition :: body.map .stmt
  | .stmt (.switch scrutinee cases) =>
    .expr scrutinee :: cases.flatMap fun c => [.expr c.label, .stmt c.body]
  | .stmt (.const _ annotation value) => annotation.toList.map .type ++ [.expr value]

/-- The names that the node itself holds and that are written as they stand: not quoted, and not
those in the nodes below. -/
def bareNames : Node → List String
  | .type (.ref name _) | .expr (.ident name) | .stmt (.const name _ _) => [name]
  | .type (.function params _) => params.map (·.name)
  | .expr (.object assignments) => (assignments.filter (·.value.isNone)).map (·.name)
  | .expr (.arrow params _) | .expr (.arrowBlock params _) => params
  | _ => []

/-- The part is the node or lies below it, at any depth. -/
def Contains : Node → Node → Prop :=
  Relation.ReflTransGen fun node child => child ∈ node.children

/-- The property holds of the node and of all nodes below it. -/
def Everywhere (P : Node → Prop) (node : Node) : Prop :=
  ∀ part, node.Contains part → P part

theorem contains_iff {node part : Node} :
    node.Contains part ↔ node = part ∨ ∃ child ∈ node.children, child.Contains part :=
  Relation.ReflTransGen.cases_head_iff

theorem everywhere_iff {P : Node → Prop} {node : Node} :
    node.Everywhere P ↔ P node ∧ ∀ child ∈ node.children, child.Everywhere P := by
  constructor
  · intro h
    refine ⟨h node .refl, fun child hchild part hpart => h part ?_⟩
    exact contains_iff.mpr (.inr ⟨child, hchild, hpart⟩)
  · rintro ⟨hnode, hchildren⟩ part hpart
    rcases contains_iff.mp hpart with rfl | ⟨child, hchild, hpart⟩
    · exact hnode
    · exact hchildren child hchild part hpart

/-! ## Induction -/

theorem sizeOf_lt_of_mem_children {node child : Node} (h : child ∈ node.children) :
    sizeOf child < sizeOf node := by
  -- a node below is a part of the arguments of a constructor, or of an entry of such a list
  have hparam : ∀ (param : Param TypeNode) type, param.type = some type →
      sizeOf type < sizeOf param := by
    rintro ⟨name, _⟩ type rfl
    simp +arith
  have hproperty : ∀ p : Property TypeNode, sizeOf p.type < sizeOf p := fun p => by
    cases p
    simp +arith
  have hvalue : ∀ (assignment : Assignment Expr) value, assignment.value = some value →
      sizeOf value < sizeOf assignment := by
    rintro ⟨name, _⟩ value rfl
    simp +arith
  have hcase : ∀ case : Case Expr Stmt,
      sizeOf case.label < sizeOf case ∧ sizeOf case.body < sizeOf case := fun case => by
    cases case
    simp +arith
  unfold children at h
  split at h <;>
    simp only [List.mem_append, List.mem_map, List.mem_filterMap, List.mem_flatMap, List.mem_cons,
      List.not_mem_nil, Option.mem_toList, or_false] at h <;>
    grind [→ List.sizeOf_lt_of_mem]

/-- Induction over the nodes of a tree, of all kinds at once. -/
theorem induct {motive : Node → Prop}
    (step : ∀ node, (∀ child ∈ node.children, motive child) → motive node) (node : Node) :
    motive node :=
  step node fun child hchild =>
    have := sizeOf_lt_of_mem_children hchild
    induct step child
termination_by sizeOf node

/-! ## One kind of node at a time -/

section Kinds

variable {P : Node → Prop}

/-- The rules below differ only in how a property of all children is taken apart. -/
theorem everywhere_iff_of_children {node : Node} {Q : Prop}
    (h : (∀ child ∈ node.children, child.Everywhere P) ↔ Q) :
    node.Everywhere P ↔ P node ∧ Q :=
  everywhere_iff.trans (and_congr_right fun _ => h)

@[simp]
theorem everywhere_ref {name : String} {args : List TypeNode} :
    Everywhere P (.type (.ref name args)) ↔
      P (.type (.ref name args)) ∧ ∀ arg ∈ args, Everywhere P (.type arg) :=
  everywhere_iff_of_children List.forall_mem_map

@[simp]
theorem everywhere_tuple {items : List TypeNode} :
    Everywhere P (.type (.tuple items)) ↔
      P (.type (.tuple items)) ∧ ∀ item ∈ items, Everywhere P (.type item) :=
  everywhere_iff_of_children List.forall_mem_map

@[simp]
theorem everywhere_function {params : List (Param TypeNode)} {result : TypeNode} :
    Everywhere P (.type (.function params result)) ↔ P (.type (.function params result)) ∧
      (∀ param ∈ params, ∀ type ∈ param.type, Everywhere P (.type type)) ∧
      Everywhere P (.type result) := by
  refine everywhere_iff_of_children (List.forall_mem_append.trans ?_)
  rw [List.forall_mem_map, List.forall_mem_filterMap, List.forall_mem_singleton]
  simp

@[simp]
theorem everywhere_literal {value : String} :
    Everywhere P (.type (.literal value)) ↔ P (.type (.literal value)) :=
  everywhere_iff.trans (and_iff_left (List.forall_mem_nil _))

@[simp]
theorem everywhere_objectType {properties : List (Property TypeNode)} :
    Everywhere P (.type (.object properties)) ↔ P (.type (.object properties)) ∧
      ∀ property ∈ properties, Everywhere P (.type property.type) :=
  everywhere_iff_of_children List.forall_mem_map

@[simp]
theorem everywhere_union {items : List TypeNode} :
    Everywhere P (.type (.union items)) ↔
      P (.type (.union items)) ∧ ∀ item ∈ items, Everywhere P (.type item) :=
  everywhere_iff_of_children List.forall_mem_map

@[simp]
theorem everywhere_ident {name : String} :
    Everywhere P (.expr (.ident name)) ↔ P (.expr (.ident name)) :=
  everywhere_iff.trans (and_iff_left (List.forall_mem_nil _))

@[simp]
theorem everywhere_str {value : String} :
    Everywhere P (.expr (.str value)) ↔ P (.expr (.str value)) :=
  everywhere_iff.trans (and_iff_left (List.forall_mem_nil _))

@[simp]
theorem everywhere_bool {value : Bool} :
    Everywhere P (.expr (.bool value)) ↔ P (.expr (.bool value)) :=
  everywhere_iff.trans (and_iff_left (List.forall_mem_nil _))

@[simp]
theorem everywhere_member {object : Expr} {property : String} :
    Everywhere P (.expr (.member object property)) ↔
      P (.expr (.member object property)) ∧ Everywhere P (.expr object) :=
  everywhere_iff_of_children List.forall_mem_singleton

@[simp]
theorem everywhere_call {callee : Expr} {args : List Expr} :
    Everywhere P (.expr (.call callee args)) ↔ P (.expr (.call callee args)) ∧
      Everywhere P (.expr callee) ∧ ∀ arg ∈ args, Everywhere P (.expr arg) := by
  refine everywhere_iff_of_children (List.forall_mem_cons.trans ?_)
  rw [List.forall_mem_map]

@[simp]
theorem everywhere_object {assignments : List (Assignment Expr)} :
    Everywhere P (.expr (.object assignments)) ↔ P (.expr (.object assignments)) ∧
      ∀ assignment ∈ assignments, ∀ value ∈ assignment.value, Everywhere P (.expr value) := by
  refine everywhere_iff_of_children (List.forall_mem_map.trans ?_)
  rw [List.forall_mem_filterMap]
  simp

@[simp]
theorem everywhere_arrow {params : List String} {result : Expr} :
    Everywhere P (.expr (.arrow params result)) ↔
      P (.expr (.arrow params result)) ∧ Everywhere P (.expr result) :=
  everywhere_iff_of_children List.forall_mem_singleton

@[simp]
theorem everywhere_arrowBlock {params : List String} {body : List Stmt} :
    Everywhere P (.expr (.arrowBlock params body)) ↔
      P (.expr (.arrowBlock params body)) ∧ ∀ stmt ∈ body, Everywhere P (.stmt stmt) :=
  everywhere_iff_of_children List.forall_mem_map

@[simp]
theorem everywhere_binary {op : BinaryOp} {lhs rhs : Expr} :
    Everywhere P (.expr (.binary op lhs rhs)) ↔
      P (.expr (.binary op lhs rhs)) ∧ Everywhere P (.expr lhs) ∧ Everywhere P (.expr rhs) := by
  refine everywhere_iff_of_children (List.forall_mem_cons.trans ?_)
  rw [List.forall_mem_singleton]

@[simp]
theorem everywhere_ret {value : Expr} :
    Everywhere P (.stmt (.ret value)) ↔ P (.stmt (.ret value)) ∧ Everywhere P (.expr value) :=
  everywhere_iff_of_children List.forall_mem_singleton

@[simp]
theorem everywhere_ifThen {condition : Expr} {body : List Stmt} :
    Everywhere P (.stmt (.ifThen condition body)) ↔ P (.stmt (.ifThen condition body)) ∧
      Everywhere P (.expr condition) ∧ ∀ stmt ∈ body, Everywhere P (.stmt stmt) := by
  refine everywhere_iff_of_children (List.forall_mem_cons.trans ?_)
  rw [List.forall_mem_map]

@[simp]
theorem everywhere_switch {scrutinee : Expr} {cases : List (Case Expr Stmt)} :
    Everywhere P (.stmt (.switch scrutinee cases)) ↔ P (.stmt (.switch scrutinee cases)) ∧
      Everywhere P (.expr scrutinee) ∧
      ∀ case ∈ cases, Everywhere P (.expr case.label) ∧ Everywhere P (.stmt case.body) := by
  refine everywhere_iff_of_children (List.forall_mem_cons.trans ?_)
  rw [List.forall_mem_flatMap]
  simp

@[simp]
theorem everywhere_const {name : String} {type : Option TypeNode} {value : Expr} :
    Everywhere P (.stmt (.const name type value)) ↔ P (.stmt (.const name type value)) ∧
      (∀ t ∈ type, Everywhere P (.type t)) ∧ Everywhere P (.expr value) := by
  refine everywhere_iff_of_children (List.forall_mem_append.trans ?_)
  rw [List.forall_mem_map, List.forall_mem_singleton]
  simp

end Kinds

end Node

/-! ## Items -/

namespace Item

/-- The nodes at the top of an item. -/
def roots : Item → List Node
  | .typeAlias _ params type => (params.filterMap (·.bound)).map .type ++ [.type type]
  | .const _ type value => [.type type, .expr value]
  | .function _ typeParams params result body =>
    (typeParams.filterMap (·.bound)).map .type ++ (params.filterMap (·.type)).map .type ++
      [.type result] ++ body.map .stmt
  | .imports _ _ => []

/-- The names that the item itself holds and that are written as they stand. -/
def bareNames : Item → List String
  | .typeAlias name params _ => name :: params.map (·.name)
  | .const name _ _ => [name]
  | .function name typeParams params _ _ =>
    name :: (typeParams.map (·.name) ++ params.map (·.name))
  | .imports names _ => names

/-- The node occurs in the item, at any depth. -/
def Contains (item : Item) (node : Node) : Prop :=
  ∃ root ∈ item.roots, root.Contains node

/-- The property holds of all nodes of the item. -/
def Everywhere (P : Node → Prop) (item : Item) : Prop :=
  ∀ node, item.Contains node → P node

theorem everywhere_iff {P : Node → Prop} {item : Item} :
    item.Everywhere P ↔ ∀ root ∈ item.roots, root.Everywhere P := by
  constructor
  · exact fun h root hroot node hnode => h node ⟨root, hroot, hnode⟩
  · rintro h node ⟨root, hroot, hnode⟩
    exact h root hroot node hnode

section Kinds

variable {P : Node → Prop}

@[simp]
theorem everywhere_typeAlias {name : String} {params : List TypeParam} {type : TypeNode} :
    Everywhere P (.typeAlias name params type) ↔
      (∀ param ∈ params, ∀ bound ∈ param.bound, Node.Everywhere P (.type bound)) ∧
      Node.Everywhere P (.type type) := by
  refine everywhere_iff.trans (List.forall_mem_append.trans ?_)
  rw [List.forall_mem_map, List.forall_mem_filterMap, List.forall_mem_singleton]
  simp

@[simp]
theorem everywhere_const {name : String} {type : TypeNode} {value : Expr} :
    Everywhere P (.const name type value) ↔
      Node.Everywhere P (.type type) ∧ Node.Everywhere P (.expr value) := by
  refine everywhere_iff.trans (List.forall_mem_cons.trans ?_)
  rw [List.forall_mem_singleton]

@[simp]
theorem everywhere_function {name : String} {typeParams : List TypeParam}
    {params : List (Param TypeNode)} {result : TypeNode} {body : List Stmt} :
    Everywhere P (.function name typeParams params result body) ↔
      (∀ param ∈ typeParams, ∀ bound ∈ param.bound, Node.Everywhere P (.type bound)) ∧
      (∀ param ∈ params, ∀ type ∈ param.type, Node.Everywhere P (.type type)) ∧
      Node.Everywhere P (.type result) ∧ ∀ stmt ∈ body, Node.Everywhere P (.stmt stmt) := by
  refine everywhere_iff.trans (List.forall_mem_append.trans ?_)
  simp only [List.forall_mem_append, List.forall_mem_map, List.forall_mem_filterMap]
  simp [and_assoc]

@[simp]
theorem everywhere_imports {names : List String} {module : String} :
    Everywhere P (.imports names module) :=
  everywhere_iff.mpr (List.forall_mem_nil _)

end Kinds

end Item

/-! ## References -/

namespace TypeNode

/-- Some reference in the type, at any depth, has the name. -/
def RefersTo (type : TypeNode) (name : String) : Prop :=
  ∃ args, Node.Contains (.type type) (.type (.ref name args))

variable {name : String}

theorem refersTo_ref {head : String} {args : List TypeNode} :
    RefersTo (.ref head args) name ↔ head = name ∨ ∃ arg ∈ args, arg.RefersTo name := by
  simp only [RefersTo]
  constructor
  · rintro ⟨args', h⟩
    rcases Node.contains_iff.mp h with heq | ⟨child, hchild, h⟩
    · cases heq
      exact .inl rfl
    · obtain ⟨arg, harg, rfl⟩ := List.mem_map.mp hchild
      exact .inr ⟨arg, harg, args', h⟩
  · rintro (rfl | ⟨arg, harg, args', h⟩)
    · exact ⟨args, .refl⟩
    · exact ⟨args', Node.contains_iff.mpr (.inr ⟨_, List.mem_map_of_mem harg, h⟩)⟩

/-- A type that is not a reference refers to what the types right below it refer to. -/
theorem refersTo_of_forall_ne {type : TypeNode} (hne : ∀ args, type ≠ .ref name args)
    {types : List TypeNode} (hchildren : (Node.type type).children = types.map .type) :
    type.RefersTo name ↔ ∃ child ∈ types, child.RefersTo name := by
  simp only [RefersTo]
  constructor
  · rintro ⟨args, h⟩
    rcases Node.contains_iff.mp h with heq | ⟨child, hchild, h⟩
    · exact absurd (Node.type.inj heq) (hne args)
    · rw [hchildren] at hchild
      obtain ⟨child, hmem, rfl⟩ := List.mem_map.mp hchild
      exact ⟨child, hmem, args, h⟩
  · rintro ⟨child, hmem, args, h⟩
    exact ⟨args, Node.contains_iff.mpr (.inr ⟨_, hchildren ▸ List.mem_map_of_mem hmem, h⟩)⟩

theorem refersTo_tuple {items : List TypeNode} :
    RefersTo (.tuple items) name ↔ ∃ item ∈ items, item.RefersTo name :=
  refersTo_of_forall_ne (by simp) rfl

theorem refersTo_function {params : List (Param TypeNode)} {result : TypeNode} :
    RefersTo (.function params result) name ↔
      (∃ type ∈ params.filterMap (·.type), type.RefersTo name) ∨ result.RefersTo name := by
  have hchildren : (Node.type (.function params result)).children =
      (params.filterMap (·.type) ++ [result]).map .type := by
    rw [List.map_append]
    rfl
  rw [refersTo_of_forall_ne (by simp) hchildren]
  simp only [List.mem_append, List.mem_singleton, or_and_right, exists_or, exists_eq_left]

end TypeNode

end AlgebraicData.Target
