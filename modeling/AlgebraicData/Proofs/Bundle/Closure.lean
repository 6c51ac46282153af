import AlgebraicData.Proofs.Bundle.Construction
import AlgebraicData.Proofs.Bundle.Property

/-!
# Type parameters in scope

An alias and a function list the type parameters that they use.  A constant has no such list, so the
type of a nullary constructor's constant has something else in the place of each parameter: the
bound of the parameter, or `never`.  Where that refers to a parameter again, nothing binds it.

* `Target.Item.ClosedOver` — of the given names, an item refers only to those that it binds;
* `closedOver_of_kind_ne` — everything in a bundle but the constructors is closed over the
  parameters of the declaration, because it binds all of them;
* `closedOver_constructorItem_iff` — what must hold of the bounds for a constructor to be closed.
-/

namespace AlgebraicData

open Target

/-! ## Items and the names they bind -/

namespace Target

/-- The node is not a type. -/
def Node.IsCode : Node → Prop
  | .type _ => False
  | .expr _ | .stmt _ => True

namespace Item

/-- The type parameters that an item binds. -/
def typeParamNames : Item → List String
  | .typeAlias _ params _ | .function _ params _ _ _ => params.map (·.name)
  | .const _ _ _ | .imports _ _ => []

/-- Some type reference in the item, at any depth, has the name. -/
def RefersTo (item : Item) (name : String) : Prop :=
  ∃ args, item.Contains (.type (.ref name args))

/-- Of the given names, the item refers only to those that it binds. -/
def ClosedOver (names : List String) (item : Item) : Prop :=
  ∀ name ∈ names, item.RefersTo name → name ∈ item.typeParamNames

theorem closedOver_of_subset {names : List String} {item : Item}
    (h : names ⊆ item.typeParamNames) : item.ClosedOver names :=
  fun _ hname _ => h hname

theorem closedOver_imports (names imported : List String) (module : String) :
    (Item.imports imported module).ClosedOver names := by
  rintro name - ⟨args, root, hroot, -⟩
  cases hroot

/-- A constant refers to what its type refers to, if its value holds no types. -/
theorem refersTo_const_iff {binding name : String} {type : TypeNode} {value : Expr}
    (hvalue : Node.Everywhere Node.IsCode (.expr value)) :
    (Item.const binding type value).RefersTo name ↔ type.RefersTo name := by
  constructor
  · rintro ⟨args, root, hroot, hcontains⟩
    rcases List.mem_pair.mp hroot with rfl | rfl
    · exact ⟨args, hcontains⟩
    · exact absurd (hvalue _ hcontains) id
  · rintro ⟨args, hcontains⟩
    exact ⟨args, .type type, List.mem_cons_self, hcontains⟩

end Item

end Target

/-! ## What stands for a parameter -/

/-- The names in what stands for the parameter where nothing binds it: those in its bound, as it is
written, or `never`. -/
def TypeParameter.instanceNames (p : TypeParameter) : List String :=
  match p.bound with
  | none => ["never"]
  | some bound => bound.writtenNames

namespace Declaration

/-- The names of the type parameters. -/
def parameterNames (d : Declaration) : List String :=
  d.parameters.map (·.name)

theorem subset_typeParams (d : Declaration) : d.parameterNames ⊆ d.typeParams.map (·.name) := by
  rw [typeParams, List.map_map]
  exact List.Subset.refl _

theorem refersTo_bottomType_iff {d : Declaration} {name : String} :
    d.bottomType.RefersTo name ↔ name = d.name ∨ ∃ p ∈ d.parameters, name ∈ p.instanceNames := by
  have hinstance : ∀ p : TypeParameter,
      ((p.bound.map TypeExpr.toNode).getD (TypeNode.named "never")).RefersTo name ↔
        name ∈ p.instanceNames := by
    intro p
    unfold TypeParameter.instanceNames
    cases p.bound with
    | none => simp [TypeNode.named, TypeNode.refersTo_ref, eq_comm]
    | some bound => exact bound.refersTo_toNode_iff_mem_writtenNames
  rw [bottomType, TypeNode.refersTo_ref]
  simp only [List.mem_map, exists_exists_and_eq_and, hinstance]
  exact or_congr_left eq_comm

/-- What stands for the parameters refers to none of them, and neither does the name of the type. -/
def HasClosedInstances (d : Declaration) : Prop :=
  ∀ p ∈ d.parameters, p.name ≠ d.name ∧ ∀ q ∈ d.parameters, p.name ∉ q.instanceNames

end Declaration

/-! ## Constructors and all other items -/

/-- All items but constructors bind all parameters, or there are none. -/
theorem closedOver_of_kind_ne {d : Declaration} {options : Options} {fragment : Fragment}
    (hmem : fragment ∈ d.bundle options) (hkind : fragment.kind ≠ .constructor) :
    fragment.item.ClosedOver d.parameterNames := by
  have hparams := d.subset_typeParams
  cases Declaration.mem_bundle_iff.mp hmem with
  | data => exact Item.closedOver_of_subset hparams
  | constructor => exact absurd rfl hkind
  | fold =>
    refine Item.closedOver_of_subset (List.Subset.trans hparams ?_)
    exact List.map_subset _ (List.subset_append_left _ _)
  | prismImport => exact Item.closedOver_imports _ _ _
  | accessor =>
    unfold Accessor.item
    split
    · exact Item.closedOver_of_subset hparams
    · rename_i hmonomorphic
      have hnone : d.parameters = [] := by
        simpa [Declaration.isPolymorphic] using hmonomorphic
      simp [Item.ClosedOver, Declaration.parameterNames, hnone]
  | eqImport => exact Item.closedOver_imports _ _ _
  | equality => exact Item.closedOver_of_subset hparams

/-- The object in a constant holds no types. -/
theorem refersTo_constructorItem_iff {c : Constructor} (hnullary : c.isNullary = true)
    {d : Declaration} {options : Options} {binding name : String} :
    (DataType.constructorItem d options c binding).RefersTo name ↔ d.bottomType.RefersTo name := by
  rw [DataType.constructorItem, if_pos hnullary]
  refine Item.refersTo_const_iff ?_
  exact (DataType.everywhere_variantObject (fun _ => trivial) fun _ _ => trivial).mpr trivial

theorem closedOver_constructorItem_iff {d : Declaration} {options : Options} {c : Constructor}
    {name : String} :
    (DataType.constructorItem d options c name).ClosedOver d.parameterNames ↔
      (c.isNullary = true → d.HasClosedInstances) := by
  by_cases hnullary : c.isNullary = true
  · have hnames : (DataType.constructorItem d options c name).typeParamNames = [] := by
      rw [DataType.constructorItem, if_pos hnullary]
      rfl
    rw [imp_iff_right hnullary, Item.ClosedOver, hnames, Declaration.parameterNames,
      List.forall_mem_map]
    refine forall₂_congr fun p _ => ?_
    rw [refersTo_constructorItem_iff hnullary, Declaration.refersTo_bottomType_iff]
    simp
  · rw [DataType.constructorItem, if_neg hnullary]
    exact iff_of_true (Item.closedOver_of_subset d.subset_typeParams) fun h => absurd h hnullary

/-- All items of a bundle but the constants of nullary constructors bind the type parameters that
they refer to.  The constants do exactly if no parameter is called like the declared type, and none
is named by what stands for a parameter: by its bound, or as `never`. -/
theorem bundle_closedOver_parameters_iff (d : Declaration) (options : Options) :
    (∀ fragment ∈ d.bundle options,
      (∀ name type value, fragment ≠ ⟨.constructor, .const name type value⟩) →
      fragment.item.ClosedOver d.parameterNames) ∧
    ((∀ fragment ∈ d.bundle options, fragment.item.ClosedOver d.parameterNames) ↔
      (d.hasNullary = true → ∀ p ∈ d.parameters, p.name ≠ d.name ∧
        ∀ q ∈ d.parameters, p.name ∉ q.instanceNames)) := by
  refine ⟨fun fragment hmem hne => ?_, fun h hnullary => ?_, fun h fragment hmem => ?_⟩
  · cases Declaration.mem_bundle_iff.mp hmem with
    | constructor =>
      refine closedOver_constructorItem_iff.mpr fun hnullary => ?_
      rw [DataType.constructorItem, if_pos hnullary] at hne
      exact absurd rfl (hne _ _ _)
    | _ => exact closedOver_of_kind_ne hmem (by simp)
  · obtain ⟨c, hc, hnullary⟩ := List.any_eq_true.mp hnullary
    obtain ⟨i, hi⟩ := List.mem_iff_getElem?.mp hc
    obtain ⟨name, hitem⟩ := exists_constructorItem hi options
    have hmem := Declaration.mem_itemsOf_iff.mp (List.mem_of_getElem? hitem)
    exact closedOver_constructorItem_iff.mp (h _ hmem) hnullary
  · cases Declaration.mem_bundle_iff.mp hmem with
    | constructor hc =>
      refine closedOver_constructorItem_iff.mpr fun hnullary => h ?_
      exact List.any_eq_true.mpr ⟨_, (List.of_mem_zip hc).1, hnullary⟩
    | _ => exact closedOver_of_kind_ne hmem (by simp)

/-- `data Bounded A (B :: A) = Empty | Full B` -/
def boundedDeclaration : Declaration where
  name := "Bounded"
  parameters := [⟨"A", none⟩, ⟨"B", some (.var "A")⟩]
  constructors := [.ofTypes "Empty" [], .ofTypes "Full" [.var "B"]]
  constructors_ne_nil := List.cons_ne_nil _ _
  nodup_parameters := by decide
  nodup_constructors := by decide

/-- The second parameter is bounded by the first, so the type of the constant `empty` is
`Bounded<never, A>`, where nothing binds `A`. -/
theorem bounded_constant_refers_to_parameter :
    ∃ (d : Declaration) (fragment : Fragment) (p : TypeParameter),
      parse "data Bounded A (B :: A) = Empty | Full B" = .ok d ∧ d.name ∉ d.parameterNames ∧
      fragment ∈ d.bundle {} ∧ p ∈ d.parameters ∧ fragment.item.RefersTo p.name ∧
      p.name ∉ fragment.item.typeParamNames := by
  have hparse : parse "data Bounded A (B :: A) = Empty | Full B" = .ok boundedDeclaration := by cbv
  obtain ⟨name, hitem⟩ := exists_constructorItem (d := boundedDeclaration) (i := 0) rfl {}
  refine ⟨boundedDeclaration, _, ⟨"A", none⟩, hparse, by decide,
    Declaration.mem_itemsOf_iff.mp (List.mem_of_getElem? hitem), by decide, ?_, List.not_mem_nil⟩
  rw [refersTo_constructorItem_iff rfl, Declaration.refersTo_bottomType_iff]
  exact .inr ⟨⟨"B", some (.var "A")⟩, by decide, by decide⟩

end AlgebraicData
