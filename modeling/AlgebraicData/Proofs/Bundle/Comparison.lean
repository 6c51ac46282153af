import AlgebraicData.Proofs.Bundle.Equality
import AlgebraicData.Proofs.Bundle.Types

/-!
# The types at which members are compared

`getEq` compares each member by a comparator with a declared type: a parameter, or the equality
itself for a recursive member.  Both are read back from the generated function:

* `memberComparisons` — the comparisons that it makes of the members of one constructor, in order;
* `declaredType?` — the type that it declares for a name that is used there.

A parameter is declared at the type of its member.  The equality is declared at the declared type
with its own parameters, but a member is recursive under any arguments, so the two types agree only
where the member repeats the parameters (`Declaration.AppliesToParameters`).
-/

namespace AlgebraicData

open Target

/-! ## Chains of operands -/

/-- The operands of a chain of `&&` that is grouped to the left; `true` stands for none. -/
def Target.Expr.operands : Expr → List Expr
  | .binary .and lhs rhs => lhs.operands ++ [rhs]
  | .bool true => []
  | expr => [expr]

theorem Target.Expr.operands_conjunction {exprs : List Expr}
    (h : ∀ expr ∈ exprs, expr.operands = [expr]) : (conjunction exprs).operands = exprs := by
  have hchain : ∀ (first : Expr) (rest : List Expr),
      (rest.foldl Expr.and first).operands = first.operands ++ rest := by
    intro first rest
    induction rest generalizing first with
    | nil => exact (List.append_nil _).symm
    | cons second rest ih =>
      rw [List.foldl_cons, ih, Expr.and, operands, List.append_assoc, List.singleton_append]
  cases exprs with
  | nil => rfl
  | cons first rest =>
    rw [conjunction, hchain, (List.forall_mem_cons.mp h).1, List.singleton_append]

/-! ## Types in the generated code -/

namespace TypeExpr

/-- Only `()` is written like a type of another name. -/
theorem toNode_eq_named_iff {type : TypeExpr} {name : String} :
    type.toNode = .named name ↔ type = .var name ∨ type = .unit ∧ name = "undefined" := by
  cases type with
  | ref head args => cases args <;> simp [toNode, toNodes, TypeNode.named, var]
  | tuple items => simp [toNode, TypeNode.named, var]
  | arrow domain codomain => simp [toNode, TypeNode.named, var]
  | unit => simp [toNode, TypeNode.named, var, eq_comm]

end TypeExpr

namespace Declaration

/-- The type is the declared type, applied to its own parameters in order.  A parameter may be
called `undefined`, and `()` is written like that. -/
def AppliesToParameters (d : Declaration) (type : TypeExpr) : Prop :=
  ∃ args, type = .ref d.name args ∧
    List.Forall₂ (fun arg p => arg = .var p.name ∨ arg = .unit ∧ p.name = "undefined") args
      d.parameters

theorem toNode_eq_selfType_iff {d : Declaration} {type : TypeExpr}
    (hhead : type.headName? = some d.name) :
    type.toNode = d.selfType ↔ d.AppliesToParameters type := by
  cases type with
  | ref head args =>
    obtain rfl := Option.some.inj hhead
    have hargs : args.map TypeExpr.toNode = d.parameters.map (fun p => TypeNode.named p.name) ↔
        List.Forall₂ (fun arg p => arg = .var p.name ∨ arg = .unit ∧ p.name = "undefined") args
          d.parameters := by
      rw [← List.forall₂_eq_eq_eq, List.forall₂_map_left_iff, List.forall₂_map_right_iff]
      simp only [TypeExpr.toNode_eq_named_iff]
    simp [AppliesToParameters, selfType, TypeExpr.toNode, TypeExpr.toNodes_eq_map, hargs]
  | _ => cases hhead

end Declaration

namespace Equality

/-! ## Reading the equality -/

/-- The statements that compare two values, where the statement makes an equality of them. -/
def comparisonBody : Stmt → List Stmt
  | .const _ _ (.call _ [.arrowBlock _ body]) | .ret (.call _ [.arrowBlock _ body]) => body
  | _ => []

/-- The names that the statement makes known to the comparison in it, the innermost first, with
their declared types. -/
def innerScope : Stmt → List (String × Option TypeNode)
  | .const name type (.call _ [.arrowBlock params _]) => params.map (·, none) ++ [(name, type)]
  | .ret (.call _ [.arrowBlock params _]) => params.map (·, none)
  | _ => []

/-- What the statement returns for two values with the given tag; without a choice, no tag is
asked for. -/
def returnedFor? (tag : String) : Stmt → Option Expr
  | .ret value => some value
  | .ifThen (.binary .and (.binary .strictEq _ (.str label)) _) [.ret value] =>
    if label = tag then some value else none
  | _ => none

/-- The comparisons that the equality makes of the members of the constructor with the given name,
in order. -/
def memberComparisons (item : Item) (constructor : String) : List Expr :=
  match item with
  | .function _ _ _ _ (first :: _) =>
    ((comparisonBody first).findSome? (returnedFor? constructor)).elim [] (·.operands)
  | _ => []

/-- The type that the equality declares for a name, as its comparison sees it. -/
def declaredType? (item : Item) (name : String) : Option TypeNode :=
  match item with
  | .function _ _ params _ (first :: _) =>
    ((innerScope first ++ params.map fun p => (p.name, p.type)).lookup name).join
  | _ => none

/-! ## The comparisons that are made -/

/-- Of the statements for the constructors of a sum, the one for the constructor is found. -/
theorem findSome?_compareVariant (options : Options)
    {rows : List (Constructor × List (Option String))} (hnodup : (rows.map (·.1.name)).Nodup)
    {c : Constructor} {names : List (Option String)} (hmem : (c, names) ∈ rows)
    (rest : List Stmt) :
    (rows.map (fun row => compareVariant options row.1 row.2) ++ rest).findSome?
      (returnedFor? c.name) = some (compareMembers c names) := by
  induction rows with
  | nil => cases hmem
  | cons row rows ih =>
    obtain ⟨hnotMem, hnodup⟩ := List.nodup_cons.mp hnodup
    have hfirst : returnedFor? c.name (compareVariant options row.1 row.2) =
        if row.1.name = c.name then some (compareMembers row.1 row.2) else none := rfl
    rw [List.map_cons, List.cons_append, List.findSome?_cons, hfirst]
    rcases List.mem_cons.mp hmem with rfl | hmem
    · rw [if_pos rfl]
    · have hne : row.1.name ≠ c.name := fun heq => hnotMem (List.mem_map.mpr ⟨_, hmem, heq.symm⟩)
      rw [if_neg hne]
      exact ih hnodup hmem

/-- Where there are members, the comparison is a block that returns the conjunction for each
constructor. -/
theorem exists_comparison_block {d : Declaration} (henum : d.isEnum = false) (options : Options) :
    ∃ body, comparison d options = .arrowBlock ["x", "y"] body ∧
      ∀ {c names}, (c, names) ∈ d.constructors.zip (comparators d) →
        body.findSome? (returnedFor? c.name) = some (compareMembers c names) := by
  rw [comparison, henum]
  cases hsum : d.isSum with
  | true =>
    refine ⟨_, rfl, fun {c names} hrow => ?_⟩
    rw [← List.map_uncurry_zip_eq_zipWith]
    exact findSome?_compareVariant options (nodup_names_zip_comparators d) hrow _
  | false =>
    refine ⟨_, rfl, fun {c names} hrow => ?_⟩
    obtain ⟨honly, hrows⟩ := eq_singleton_of_product hsum hrow
    rw [honly, hrows]
    rfl

section Reading

variable {d : Declaration} (henum : d.isEnum = false) (options : Options)
include henum

theorem memberComparisons_item {c : Constructor} {names : List (Option String)}
    (hrow : (c, names) ∈ d.constructors.zip (comparators d)) :
    memberComparisons (item d options) c.name =
      (c.members.zip names).zipIdx.map fun x =>
        compareProperty (x.1.2.getD selfName) (x.1.1.property x.2) := by
  obtain ⟨body, hbody, hfind⟩ := exists_comparison_block henum options
  have hreads : memberComparisons (item d options) c.name =
      (body.findSome? (returnedFor? c.name)).elim [] (·.operands) := by
    rw [item, hbody]
    cases d.isRecursive <;> rfl
  rw [hreads, hfind hrow]
  refine Expr.operands_conjunction (List.forall_mem_map.mpr fun x _ => ?_)
  rfl

/-- The comparison sees its two values, the equality itself if it has a name, and the
comparators. -/
theorem declaredType?_item (name : String) :
    declaredType? (item d options) name =
      (([("x", none), ("y", none)] ++
        (if d.isRecursive then [(selfName, some (eqType d.selfType))] else []) ++
        (comparatorParams d).map fun p : Param TypeNode => (p.name, p.type)).lookup name).join := by
  obtain ⟨body, hbody, -⟩ := exists_comparison_block henum options
  rw [item, hbody]
  cases d.isRecursive <;> rfl

theorem declaredType?_of_mem {name : String} {type : TypeNode}
    (hmem : Param.typed name type ∈ comparatorParams d) :
    declaredType? (item d options) name = some type := by
  have hnodup : (((comparatorParams d).map fun p => (p.name, p.type)).map (·.1)).Nodup := by
    rw [List.map_map]
    exact map_name_comparatorParams d ▸ nodup_comparatorNames d
  have hlookup : ((comparatorParams d).map fun p => (p.name, p.type)).lookup name =
      some (some type) :=
    List.lookup_eq_some_of_mem hnodup (List.mem_map.mpr ⟨_, hmem, rfl⟩)
  -- neither the values nor the equality itself hide a comparator
  have hname : name ∈ comparatorNames d :=
    map_name_comparatorParams d ▸ List.mem_map.mpr ⟨_, hmem, rfl⟩
  have hx := ne_of_mem_comparatorNames hname "x" (by decide)
  have hy := ne_of_mem_comparatorNames hname "y" (by decide)
  have hself := ne_of_mem_comparatorNames hname selfName (by decide)
  rw [declaredType?_item henum]
  cases d.isRecursive <;> simp [List.lookup_cons_of_ne, hx, hy, hself, hlookup]

theorem declaredType?_selfName (hrec : d.isRecursive = true) :
    declaredType? (item d options) selfName = some (eqType d.selfType) := by
  rw [declaredType?_item henum, hrec]
  rfl

end Reading

theorem isEnum_eq_false_of_mem {d : Declaration} {c : Constructor} {m : Member}
    (hc : c ∈ d.constructors) (hm : m ∈ c.members) : d.isEnum = false := by
  by_contra henum
  have hnullary := isNullary_of_isEnum (Bool.not_eq_false _ ▸ henum) hc
  rw [List.isEmpty_iff.mp hnullary] at hm
  cases hm

/-- Each member is compared by a comparator of the type of the member, or by the equality itself if
it is recursive. -/
theorem exists_comparator {d : Declaration} {c : Constructor} {j : Nat} {m : Member}
    (hc : c ∈ d.constructors) (hm : c.members[j]? = some m) (options : Options) :
    ∃ comparator,
      (memberComparisons (item d options) c.name)[j]? =
        some (compareProperty comparator (m.property j)) ∧
      declaredType? (item d options) comparator =
        some (eqType (if d.isRecursiveMember m then d.selfType else m.type.toNode)) ∧
      (comparator = selfName ↔ d.isRecursiveMember m = true) := by
  have hmem : m ∈ c.members := List.mem_of_getElem? hm
  have henum := isEnum_eq_false_of_mem hc hmem
  obtain ⟨names, hrow, hfits⟩ := (forall₂_comparators d).exists_mem_zip hc
  -- the name in the row of the constructor at the place of the member
  have hj : j < names.length := by
    rw [← hfits.length_eq, List.length_zipIdx]
    exact (List.getElem?_eq_some_iff.mp hm).1
  obtain ⟨name?, hname⟩ : ∃ name?, names[j]? = some name? := ⟨_, List.getElem?_eq_getElem hj⟩
  have hplace : (c.members.zip names)[j]? = some (m, name?) :=
    List.getElem?_zip_eq_some.mpr ⟨hm, hname⟩
  have hposition : c.members.zipIdx[j]? = some (m, j) := by
    rw [List.getElem?_zipIdx, hm, Nat.zero_add]
    rfl
  have hfit : Fits d (m, j) name? :=
    (List.forall₂_iff_zip.mp hfits).2
      (List.mem_of_getElem? (List.getElem?_zip_eq_some.mpr ⟨hposition, hname⟩))
  have hcomparison : (memberComparisons (item d options) c.name)[j]? =
      some (compareProperty (name?.getD selfName) (m.property j)) := by
    rw [memberComparisons_item henum options hrow, List.getElem?_map, List.getElem?_zipIdx, hplace,
      Nat.zero_add]
    rfl
  cases hrec : d.isRecursiveMember m with
  | true =>
    obtain rfl := hfit.eq_none hrec
    refine ⟨selfName, hcomparison, ?_, iff_of_true rfl rfl⟩
    exact declaredType?_selfName henum options
      (isRecursive_of_mem hc (List.mem_of_getElem? hposition) hrec)
  | false =>
    obtain ⟨name, rfl, hprefix⟩ := hfit.exists_name hrec
    have hparam : Param.typed name (eqType m.type.toNode) ∈ comparatorParams d :=
      List.mem_flatMap.mpr ⟨(c, names), hrow,
        List.mem_filterMap.mpr ⟨(m, some name), List.mem_of_getElem? hplace, rfl⟩⟩
    refine ⟨name, hcomparison, declaredType?_of_mem henum options hparam, ?_⟩
    refine iff_of_false (fun heq => ?_) Bool.false_ne_true
    rw [heq] at hprefix
    exact absurd hprefix (by decide)

theorem length_memberComparisons {d : Declaration} {c : Constructor} (hc : c ∈ d.constructors)
    (options : Options) :
    (memberComparisons (item d options) c.name).length = c.members.length := by
  obtain ⟨names, hrow, hfits⟩ := (forall₂_comparators d).exists_mem_zip hc
  have hlen : c.members.length = names.length := by
    rw [← hfits.length_eq, List.length_zipIdx]
  cases henum : d.isEnum with
  | true =>
    have hempty : memberComparisons (item d options) c.name = [] := by
      rw [item, comparison, henum]
      cases d.isSum <;> cases d.isRecursive <;> rfl
    rw [hempty, List.isEmpty_iff.mp (isNullary_of_isEnum henum hc)]
    rfl
  | false =>
    rw [memberComparisons_item henum options hrow, List.length_map, List.length_zipIdx,
      List.length_zip, ← hlen, Nat.min_self]

/-- In the equality of a bundle, every member of every constructor is compared once and in order.  A
member that is not recursive is compared by a parameter declared at the type of the member.  A
recursive one is compared by the equality itself, which is declared at the declared type applied to
its parameters: that is the type of the member exactly if the member applies it so. -/
theorem members_compared_at_own_type_iff (d : Declaration) {options : Options}
    (hemit : options.emitEquality = true) :
    ∃ item, d.itemsOf options .equality = [item] ∧ ∀ c ∈ d.constructors,
      (memberComparisons item c.name).length = c.members.length ∧
      ∀ j m, c.members[j]? = some m → ∃ comparator type,
        (memberComparisons item c.name)[j]? = some (compareProperty comparator (m.property j)) ∧
        declaredType? item comparator = some (eqType type) ∧
        (comparator = selfName ↔ d.isRecursiveMember m = true) ∧
        type = (if d.isRecursiveMember m then d.selfType else m.type.toNode) ∧
        (type = m.type.toNode ↔
          (d.isRecursiveMember m = true → d.AppliesToParameters m.type)) := by
  refine ⟨_, Declaration.itemsOf_equality hemit d, fun c hc =>
    ⟨length_memberComparisons hc options, fun j m hm => ?_⟩⟩
  obtain ⟨comparator, hcomparison, htype, hself⟩ := exists_comparator hc hm options
  refine ⟨comparator, _, hcomparison, htype, hself, rfl, ?_⟩
  cases hrec : d.isRecursiveMember m with
  | true =>
    have hhead : m.type.headName? = some d.name := beq_iff_eq.mp hrec
    rw [if_pos rfl, imp_iff_right rfl, eq_comm, Declaration.toNode_eq_selfType_iff hhead]
  | false => exact iff_of_true rfl fun h => absurd h Bool.false_ne_true

/-- Both members of `Cons` are compared at their own types, the head by a parameter and the tail by
the equality itself. -/
theorem list_members_compared_at_own_types :
    ({} : Options).emitEquality = true ∧
    ∃ item comparator, listDeclaration.itemsOf {} .equality = [item] ∧
      (memberComparisons item "Cons")[0]? = some (compareProperty comparator "value0") ∧
      comparator ≠ "S" ∧ declaredType? item comparator = some (eqType (.named "A")) ∧
      (memberComparisons item "Cons")[1]? = some (compareProperty "S" "value1") ∧
      declaredType? item "S" = some (eqType (.ref "List" [.named "A"])) := by
  have hemit : ({} : Options).emitEquality = true := rfl
  obtain ⟨item, hitem, hconstructors⟩ := members_compared_at_own_type_iff listDeclaration hemit
  obtain ⟨-, hmembers⟩ := hconstructors ⟨"Cons", _, _, _⟩ (List.mem_of_getElem? (i := 1) rfl)
  obtain ⟨comparator, _, hhead, htype, hself, rfl, -⟩ := hmembers 0 _ rfl
  obtain ⟨_, _, htail, htype', hself', rfl, -⟩ := hmembers 1 _ rfl
  obtain rfl := hself'.mpr (by decide)
  exact ⟨hemit, item, comparator, hitem, hhead, fun h => absurd (hself.mp h) (by decide), htype,
    htail, htype'⟩

/-- `data Nest A = Nil | Cons A (Nest (A, A))` -/
def nestDeclaration : Declaration where
  name := "Nest"
  parameters := [⟨"A", none⟩]
  constructors := [.ofTypes "Nil" [],
    .ofTypes "Cons" [.var "A", .ref "Nest" [.tuple [.var "A", .var "A"]]]]
  constructors_ne_nil := List.cons_ne_nil _ _
  nodup_parameters := List.nodup_singleton "A"
  nodup_constructors := by decide

/-- The tail of a nested list is a list of pairs, and is compared by the equality of the list. -/
theorem nest_tail_compared_at_other_type :
    ∃ d c m item comparator type,
      parse "data Nest A = Nil | Cons A (Nest (A, A))" = .ok d ∧ c ∈ d.constructors ∧
      c.members[1]? = some m ∧ d.itemsOf {} .equality = [item] ∧
      (memberComparisons item c.name)[1]? = some (compareProperty comparator (m.property 1)) ∧
      declaredType? item comparator = some (eqType type) ∧ type ≠ m.type.toNode := by
  have hparse : parse "data Nest A = Nil | Cons A (Nest (A, A))" = .ok nestDeclaration := by cbv
  obtain ⟨comparator, hcomparison, htype, -⟩ := exists_comparator (d := nestDeclaration)
    (c := ⟨"Cons", _, _, _⟩) (j := 1) (List.mem_of_getElem? (i := 1) rfl) rfl {}
  refine ⟨nestDeclaration, _, _, _, comparator, _, hparse, List.mem_of_getElem? (i := 1) rfl, rfl,
    Declaration.itemsOf_equality rfl nestDeclaration, hcomparison, htype, ?_⟩
  rw [if_pos (by decide)]
  intro heq
  cases heq

end Equality

end AlgebraicData
