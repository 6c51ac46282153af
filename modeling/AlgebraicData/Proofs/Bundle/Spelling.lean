import AlgebraicData.Proofs.Bundle.Binding
import AlgebraicData.Proofs.Bundle.Equality
import AlgebraicData.Proofs.Bundle.Signature
import AlgebraicData.Proofs.Name.Casing

/-!
# The spelling of generated names

A declaration may use names that the generated code cannot bind.  What a bundle binds is made from
them in several ways, and each has its own order of repair, change of case and renaming.

* Handlers and the parameters of constructors can always be bound.
* Constructors and accessors repair a name first and make its first letter small afterwards.  The
  small letter of `İ` is spelled with a mark, which no identifier has.
* Comparators make the first letter of a field a capital, and some capitals are spelled with marks.
* The parameter of a function type is called after the type of its argument, which is not repaired
  at all.
-/

namespace AlgebraicData

open Target

/-! ## Constructors, accessors and handlers -/

namespace BundleNames

theorem head?_identifierName_ne_dotted_iff {name : String} :
    (identifierName name).toList.head? ≠ some 'İ' ↔ name.toList.head? ≠ some 'İ' := by
  have hletter : Text.isAlphabetic 'İ' = true := by decide
  exact not_congr (head?_identifierName_eq_iff hletter)

theorem isBindable_bindings_iff (d : Declaration) (options : Options) :
    (∀ name ∈ (choose d options).bindings, IsBindable name) ↔
      ∀ c ∈ d.constructors, c.name.toList.head? ≠ some 'İ' := by
  have hreserved : ∀ base ∈ d.constructors.map wantedBinding, isReserved base = false :=
    List.forall_mem_map.mpr fun c _ => isReserved_bindingName _
  refine (Scope.isBindable_takeAll_iff hreserved _).trans (List.forall_mem_map.trans ?_)
  refine forall₂_congr fun c _ => ?_
  rw [wantedBinding, isIdentifier_bindingName, isIdentifier_lowerFirst_iff,
    and_iff_right (isIdentifier_identifierName c.name), head?_identifierName_ne_dotted_iff]

theorem isIdentifier_wantedAccessor_iff {c : Constructor} :
    isIdentifier (wantedAccessor c) = true ↔ c.name.toList.head? ≠ some 'İ' := by
  have hunderscore : isIdentifier "_" = true := by decide
  rw [wantedAccessor, isIdentifier_append_iff hunderscore,
    forall_mem_lowerFirst_iff (isIdentifier_identifierName c.name),
    head?_identifierName_ne_dotted_iff]

theorem isBindable_accessors_iff (d : Declaration) (options : Options) :
    (∀ name ∈ (choose d options).accessors, IsBindable name) ↔
      (hasAccessors d options = true → ∀ c ∈ d.constructors, c.name.toList.head? ≠ some 'İ') := by
  cases h : hasAccessors d options with
  | false => simp [accessors_eq_nil h]
  | true =>
    have hreserved : ∀ base ∈ d.constructors.map wantedAccessor, isReserved base = false :=
      List.forall_mem_map.mpr fun c _ => isReserved_append_eq_false _ (by decide)
    rw [choose, h, imp_iff_right rfl]
    refine (Scope.isBindable_takeAll_iff hreserved _).trans (List.forall_mem_map.trans ?_)
    exact forall₂_congr fun c _ => isIdentifier_wantedAccessor_iff

/-- No letter changes its case on the way to a handler. -/
theorem isBindable_handlers (d : Declaration) (options : Options) :
    ∀ name ∈ (choose d options).handlers, IsBindable name := by
  have hreserved : ∀ base ∈ d.constructors.map wantedHandler, isReserved base = false :=
    List.forall_mem_map.mpr fun c _ => isReserved_append_eq_false _ (by decide)
  refine (Scope.isBindable_takeAll_iff hreserved _).mpr (List.forall_mem_map.mpr fun c _ => ?_)
  have hon : isIdentifier "on" = true := by decide
  rw [wantedHandler, isIdentifier_append_iff hon]
  exact all_isIdentifierRest (isIdentifier_identifierName c.name)

end BundleNames

/-! ## Members -/

namespace Member

theorem isIdentifier_label (m : Member) (position : Nat) :
    isIdentifier (m.label position) = true := by
  rcases m.label_cases position with ⟨field, -, hfield, hlabel⟩ | ⟨-, hlabel⟩
  · rwa [hlabel]
  · rw [hlabel, isIdentifier_positionalName]

/-- The member has a field name that is an identifier and whose first letter has a capital that is
spelled with a mark. -/
def HasSplitCapital (m : Member) : Prop :=
  ∃ field, m.name = some field ∧ isIdentifier field = true ∧
    ∃ first ∈ field.toList.head?, first.toNat ∈ Text.splitCapitals

theorem forall_mem_upperFirst_label_iff (m : Member) (position : Nat) :
    (∀ c ∈ (upperFirst (m.label position)).toList, isIdentifierRest c = true) ↔
      ¬ m.HasSplitCapital := by
  rw [forall_mem_upperFirst_iff (m.isIdentifier_label position)]
  unfold HasSplitCapital
  rcases m.label_cases position with ⟨field, hname, hfield, hlabel⟩ | ⟨hnot, hlabel⟩
  · simp [hname, hfield, hlabel]
  · -- a positional name begins with `v`, whatever the position
    have hfirst : (m.label position).toList.head? = some 'v' := by
      rw [hlabel, positionalName, String.toList_append]
      rfl
    have hplain : 'v'.toNat ∉ Text.splitCapitals := by decide
    refine iff_of_true ?_ ?_
    · rw [hfirst]
      rintro _ ⟨⟩
      exact hplain
    · rintro ⟨field, hname, hfield, -⟩
      rw [hnot field hname] at hfield
      cases hfield

end Member

theorem Constructor.isBindable_params (c : Constructor) :
    ∀ param ∈ c.params, IsBindable param.name := by
  refine List.forall_mem_map.mpr fun x _ => ?_
  exact isBindable_bindingName_iff.mpr (x.1.isIdentifier_label x.2)

namespace Equality

theorem isIdentifier_wantedComparator_iff (d : Declaration) (c : Constructor) (m : Member)
    (position : Nat) :
    isIdentifier (wantedComparator d c m position) = true ↔ ¬ m.HasSplitCapital := by
  have heq : isIdentifier "eq" = true := by decide
  have hfront : isIdentifier ("eq" ++ if d.isSum then identifierName c.name else "") = true := by
    rw [isIdentifier_append_iff heq]
    split
    · exact all_isIdentifierRest (isIdentifier_identifierName c.name)
    · exact List.forall_mem_nil _
  rw [wantedComparator, isIdentifier_append_iff hfront, m.forall_mem_upperFirst_label_iff position]

/-- What all wanted comparators have in common. -/
theorem forall_mem_wantedComparators_iff {d : Declaration} {Q : String → Prop} :
    (∀ base ∈ (d.constructors.map (wantedComparators d)).flatten.reduceOption, Q base) ↔
      ∀ c ∈ d.constructors, ∀ x ∈ c.members.zipIdx, d.isRecursiveMember x.1 = false →
        Q (wantedComparator d c x.1 x.2) := by
  simp only [List.reduceOption_mem_iff, List.mem_flatten, List.mem_map, wantedComparators]
  constructor
  · intro h c hc x hx hrec
    exact h _ ⟨_, ⟨c, hc, rfl⟩, List.mem_map.mpr ⟨x, hx, by simp [hrec]⟩⟩
  · rintro h base ⟨_, ⟨c, hc, rfl⟩, hbase⟩
    obtain ⟨x, hx, hbase⟩ := List.mem_map.mp hbase
    cases hrec : d.isRecursiveMember x.1 with
    | true => simp [hrec] at hbase
    | false =>
      simp only [hrec, Bool.false_eq_true, if_false, Option.some.injEq] at hbase
      exact hbase ▸ h c hc x hx hrec

theorem isBindable_comparatorNames_iff (d : Declaration) :
    (∀ name ∈ comparatorNames d, IsBindable name) ↔
      ∀ c ∈ d.constructors, ∀ m ∈ c.members, d.isRecursiveMember m = false →
        ¬ m.HasSplitCapital := by
  have hreserved : ∀ base ∈ (d.constructors.map (wantedComparators d)).flatten.reduceOption,
      isReserved base = false := by
    refine forall_mem_wantedComparators_iff.mpr fun c _ x _ _ => ?_
    rw [wantedComparator, String.append_assoc]
    exact isReserved_append_eq_false _ (by decide)
  rw [comparatorNames_eq, comparators, Scope.reduceOption_takeRows,
    Scope.isBindable_takeAll_iff hreserved, forall_mem_wantedComparators_iff]
  simp only [isIdentifier_wantedComparator_iff]
  exact forall₂_congr fun c _ => List.forall_mem_zipIdx_iff
    (Q := fun m : Member => d.isRecursiveMember m = false → ¬ m.HasSplitCapital)

end Equality

/-! ## Function types -/

namespace Target.Node

/-- The names of the parameters of a function type. -/
def functionParams : Node → List String
  | .type (.function params _) => params.map (·.name)
  | _ => []

/-- All parameters of the node can be bound. -/
def BindsParams (node : Node) : Prop :=
  ∀ name ∈ node.functionParams, IsBindable name

theorem holdsOfPlain_bindsParams : HoldsOfPlain (fun _ => True) BindsParams := by
  intro node h _
  unfold BindsParams functionParams
  split
  · exact absurd h id
  · exact List.forall_mem_nil _

end Target.Node

open Node (BindsParams holdsOfPlain_bindsParams)

namespace TypeExpr

mutual

/-- The names that function types in the type take as arguments, at any depth. -/
def domainNames : TypeExpr → List String
  | .ref _ args => domainNamesOf args
  | .tuple items => domainNamesOf items
  | .arrow domain codomain =>
    domain.headName?.toList ++ (domain.domainNames ++ codomain.domainNames)
  | .unit => []

/-- The names that function types in the types of a list take as arguments. -/
def domainNamesOf : List TypeExpr → List String
  | [] => []
  | type :: types => type.domainNames ++ domainNamesOf types

end

theorem domainNamesOf_eq_flatMap (types : List TypeExpr) :
    domainNamesOf types = types.flatMap domainNames := by
  induction types with
  | nil => rfl
  | cons type types ih => rw [domainNamesOf, ih, List.flatMap_cons]

/-- A parameter called after a reference can be bound if the name can be an identifier as it is. -/
theorem isBindable_paramName?_iff (domain : TypeExpr) :
    (∀ name ∈ domain.paramName?, IsBindable name) ↔
      ∀ name ∈ domain.headName?.toList,
        isIdentifier name = true ∧ name.toList.head? ≠ some 'İ' := by
  cases domain with
  | ref name args =>
    simp [paramName?, headName?, isBindable_bindingName_iff, isIdentifier_lowerFirst_iff]
  | tuple items =>
    have htuple : IsBindable "tuple" := by decide
    simp [paramName?, headName?, htuple]
  | arrow domain codomain =>
    have hf : IsBindable "f" := by decide
    simp [paramName?, headName?, hf]
  | unit => simp [paramName?, headName?]

theorem everywhere_bindsParams_iff (type : TypeExpr) :
    Node.Everywhere BindsParams (.type type.toNode) ↔
      ∀ name ∈ type.domainNames, isIdentifier name = true ∧ name.toList.head? ≠ some 'İ' := by
  induction type using induct with
  | ref name args ih =>
    rw [toNode, toNodes_eq_map, Node.everywhere_ref, List.forall_mem_map, domainNames,
      domainNamesOf_eq_flatMap, List.forall_mem_flatMap]
    exact (and_iff_right (List.forall_mem_nil _)).trans (forall₂_congr ih)
  | tuple items ih =>
    rw [toNode, toNodes_eq_map, Node.everywhere_tuple, List.forall_mem_map, domainNames,
      domainNamesOf_eq_flatMap, List.forall_mem_flatMap]
    exact (and_iff_right (List.forall_mem_nil _)).trans (forall₂_congr ih)
  | arrow domain codomain ih ih' =>
    rw [toNode, Node.everywhere_function, domainNames, List.forall_mem_append,
      List.forall_mem_append, ih', ← isBindable_paramName?_iff]
    refine and_congr ?_ (and_congr_left fun _ => ?_)
    · cases domain.paramName? <;> simp [BindsParams, Node.functionParams, Param.typed]
    · -- a function from `()` has no parameter, and `()` has no function types
      cases domain <;> simp_all [paramName?, Param.typed, domainNames]
  | unit =>
    refine iff_of_true ?_ (List.forall_mem_nil _)
    exact Node.everywhere_named holdsOfPlain_bindsParams trivial

end TypeExpr

/-- The names that function types in the declaration take as arguments, at any depth: those in the
bounds and those in the members. -/
def Declaration.domainNames (d : Declaration) : List String :=
  (d.parameters.filterMap (·.bound)).flatMap (·.domainNames) ++
    d.constructors.flatMap fun c => c.members.flatMap (·.type.domainNames)

theorem everywhere_bindsParams_bundle_iff (d : Declaration) (options : Options) :
    (∀ fragment ∈ d.bundle options, fragment.item.Everywhere BindsParams) ↔
      ∀ name ∈ d.domainNames, isIdentifier name = true ∧ name.toList.head? ≠ some 'İ' := by
  have hfunction : ∀ c ∈ d.constructors, ∀ result,
      BindsParams (.type (.function c.params result)) :=
    fun c _ result => List.forall_mem_map.mpr c.isBindable_params
  rw [everywhere_bundle_iff holdsOfPlain_bindsParams (fun _ => List.forall_mem_nil _)
    (d.namesSatisfy_true options) (fun _ _ => List.forall_mem_nil _) hfunction,
    Declaration.domainNames, List.forall_mem_append]
  simp only [Declaration.BoundsSatisfy, Constructor.MembersSatisfy,
    TypeExpr.everywhere_bindsParams_iff, List.forall_mem_flatMap, List.forall_mem_filterMap,
    Option.mem_def]

/-! ## All names of a bundle -/

/-- Of the names that a bundle makes and binds, those of handlers and of the parameters of
constructors are identifiers and not reserved.  So are the others, with these exceptions: a
constructor and its accessor if the name of the constructor begins with `İ`, a comparator if the
capital of a field is spelled with a mark, and the parameter of a function type if the type of its
argument is not called by an identifier or its name begins with `İ`. -/
theorem default_names_bindable_iff (d : Declaration) :
    ((∀ name ∈ d.namesOf {} .constructor, IsBindable name) ↔
      ∀ c ∈ d.constructors, c.name.toList.head? ≠ some 'İ') ∧
    ((∀ name ∈ d.namesOf {} .accessor, IsBindable name) ↔
      (d.isSum = true → ∀ c ∈ d.constructors, c.name.toList.head? ≠ some 'İ')) ∧
    (∀ fold ∈ d.itemsOf {} .fold, ∀ param ∈ fold.params, IsBindable param.name) ∧
    (∀ item ∈ d.itemsOf {} .constructor, ∀ param ∈ item.params, IsBindable param.name) ∧
    ((∀ item ∈ d.itemsOf {} .equality, ∀ param ∈ item.params, IsBindable param.name) ↔
      ∀ c ∈ d.constructors, ∀ m ∈ c.members, d.isRecursiveMember m = false →
        ¬ m.HasSplitCapital) ∧
    ((∀ fragment ∈ d.bundle {}, ∀ node, fragment.item.Contains node →
        ∀ name ∈ node.functionParams, IsBindable name) ↔
      ∀ name ∈ d.domainNames, isIdentifier name = true ∧ name.toList.head? ≠ some 'İ') := by
  refine ⟨?_, ?_, ?_, ?_, ?_, everywhere_bindsParams_bundle_iff d {}⟩
  · rw [Declaration.namesOf_constructor, BundleNames.isBindable_bindings_iff]
  · rw [Declaration.namesOf_accessor, BundleNames.isBindable_accessors_iff,
      BundleNames.hasAccessors, Bool.and_true]
  · intro fold hfold
    obtain ⟨name, eager, rfl⟩ := Fold.exists_item_of_mem hfold
    rw [← List.forall_mem_map (P := IsBindable), Fold.map_name_params_item]
    exact List.forall_mem_cons.mpr ⟨by decide, BundleNames.isBindable_handlers d {}⟩
  · intro item hitem
    cases Declaration.mem_bundle_iff.mp (Declaration.mem_itemsOf_iff.mp hitem) with
    | constructor hc =>
      unfold DataType.constructorItem
      split
      · exact List.forall_mem_nil _
      · exact Constructor.isBindable_params _
  · rw [Declaration.itemsOf_equality rfl, List.forall_mem_singleton,
      ← Equality.isBindable_comparatorNames_iff, ← Equality.map_name_comparatorParams,
      List.forall_mem_map]
    rfl

/-- `data Handler = Handler (can't -> string)` -/
def handlerDeclaration : Declaration where
  name := "Handler"
  parameters := []
  constructors := [.ofTypes "Handler" [.arrow (.var "can't") (.var "string")]]
  constructors_ne_nil := List.cons_ne_nil _ _
  nodup_parameters := List.nodup_nil
  nodup_constructors := by decide

/-- The argument is called `can't`, and so is the parameter. -/
theorem handler_parameter_unbindable :
    ∃ d, parse "data Handler = Handler (can't -> string)" = .ok d ∧
      ∃ fragment ∈ d.bundle {}, ∃ node, fragment.item.Contains node ∧
        ∃ name ∈ node.functionParams, ¬ IsBindable name := by
  have hparse : parse "data Handler = Handler (can't -> string)" = .ok handlerDeclaration := by cbv
  have hname : isIdentifier "can't" = false := by decide
  refine ⟨handlerDeclaration, hparse, ?_⟩
  by_contra hall
  have hbinds := (everywhere_bindsParams_bundle_iff handlerDeclaration {}).mp
    fun fragment hfragment node hnode name hmem => by_contra fun hnot =>
      hall ⟨fragment, hfragment, node, hnode, name, hmem, hnot⟩
  have hidentifier := (hbinds "can't" (by decide)).1
  rw [hname] at hidentifier
  cases hidentifier

end AlgebraicData
