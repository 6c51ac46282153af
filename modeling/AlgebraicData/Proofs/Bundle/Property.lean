import AlgebraicData.Proofs.Bundle.Member
import AlgebraicData.Proofs.Bundle.Traversal

/-!
# Properties of one name

A bundle has objects in three places: the types of the variants, the objects that constructors make,
and the type of the object of handlers.  Handlers are named apart, and so are the members of a
constructor.  Only the tag of a sum comes from elsewhere and can meet a member, in the type of the
variant and in the object alike (`DataType.variantNames`); nothing else in a bundle has two
properties of one name.
-/

namespace AlgebraicData

open Target

namespace Target.Node

/-- The names of the properties of an object or an object type. -/
def propertyNames : Node → List String
  | .type (.object properties) => properties.map (·.name)
  | .expr (.object assignments) => assignments.map (·.name)
  | _ => []

/-- No two properties of the node have one name. -/
def Distinct (node : Node) : Prop :=
  node.propertyNames.Nodup

theorem holdsOfPlain_distinct : HoldsOfPlain (fun _ => True) Distinct := by
  intro node h _
  unfold Distinct propertyNames
  split
  · exact absurd h id
  · exact absurd h id
  · exact List.nodup_nil

end Target.Node

open Node (Distinct holdsOfPlain_distinct)

/-! ## Types -/

theorem TypeExpr.everywhere_distinct (type : TypeExpr) :
    Node.Everywhere Distinct (.type type.toNode) :=
  everywhere_toNode (fun _ _ => List.nodup_nil) (fun _ => List.nodup_nil)
    (fun _ _ => List.nodup_nil) type

theorem Declaration.boundsSatisfy_distinct (d : Declaration) : d.BoundsSatisfy Distinct :=
  fun _ _ bound _ => bound.everywhere_distinct

theorem Constructor.membersSatisfy_distinct (c : Constructor) : c.MembersSatisfy Distinct :=
  fun m _ => m.type.everywhere_distinct

/-! ## Variants -/

namespace DataType

/-- The names of the properties of a variant: the tag, if there is one, and the members. -/
def variantNames (d : Declaration) (options : Options) (c : Constructor) : List String :=
  (if d.isSum then [options.tagName] else []) ++ c.properties

variable {d : Declaration} {options : Options} {c : Constructor}

theorem nodup_variantNames_iff :
    (variantNames d options c).Nodup ↔ (d.isSum = true → options.tagName ∉ c.properties) := by
  rw [variantNames]
  cases d.isSum <;> simp [c.nodup_properties]

theorem propertyNames_variantType :
    (Node.type (.object (variantProperties d options c))).propertyNames =
      variantNames d options c := by
  rw [Node.propertyNames, variantProperties, variantNames, List.map_append, List.map_map]
  cases d.isSum <;> rfl

theorem propertyNames_variantObject :
    (Node.expr (variantObject d options c)).propertyNames = variantNames d options c := by
  rw [variantObject, variantNames, Node.propertyNames, List.map_append, List.map_map]
  cases d.isSum <;> rfl

theorem everywhere_item_iff :
    (item d options).Everywhere Distinct ↔
      ∀ c ∈ d.constructors, (variantNames d options c).Nodup := by
  rw [item_everywhere_iff holdsOfPlain_distinct, and_iff_right d.boundsSatisfy_distinct]
  refine forall₂_congr fun c _ => ?_
  rw [and_iff_left c.membersSatisfy_distinct, Distinct, propertyNames_variantType]

theorem everywhere_constructorItem_iff {name : String} :
    (constructorItem d options c name).Everywhere Distinct ↔
      (variantNames d options c).Nodup := by
  rw [constructorItem_everywhere_iff holdsOfPlain_distinct (d.namesSatisfy_true options)
    (fun _ _ => trivial) d.boundsSatisfy_distinct c.membersSatisfy_distinct, Distinct,
    propertyNames_variantObject]

end DataType

/-! ## Items without variants -/

theorem Fold.everywhere_distinct_item (d : Declaration) (options : Options) (name : String)
    (eager : Bool) : (item d options (.choose d options) name eager).Everywhere Distinct := by
  refine item_everywhere holdsOfPlain_distinct (d.namesSatisfy_true options)
    d.boundsSatisfy_distinct (fun c _ => c.membersSatisfy_distinct)
    (fun _ _ _ => List.nodup_nil) ?_ name
  rw [Distinct, Node.propertyNames, map_name_handlerProperties]
  exact (List.nodup_cons.mp (BundleNames.nodup_handlers d options)).2

theorem Accessor.everywhere_distinct_item (d : Declaration) (options : Options) (c : Constructor)
    (name : String) : (item d options c name).Everywhere Distinct :=
  item_everywhere holdsOfPlain_distinct (d.namesSatisfy_true options) d.boundsSatisfy_distinct
    c name

theorem Equality.everywhere_distinct_item (d : Declaration) (options : Options) :
    (item d options).Everywhere Distinct :=
  item_everywhere holdsOfPlain_distinct (d.namesSatisfy_true options) d.boundsSatisfy_distinct
    fun c _ => c.membersSatisfy_distinct

/-! ## Bundles -/

/-- No object and no object type of a bundle, at any depth, has two properties of one name, unless
the declaration is a sum and a member is called like the tag. -/
theorem bundle_properties_distinct_iff (d : Declaration) (options : Options) :
    (∀ fragment ∈ d.bundle options, ∀ node, fragment.item.Contains node →
      node.propertyNames.Nodup) ↔
    (d.isSum = true → ∀ c ∈ d.constructors, options.tagName ∉ c.properties) := by
  have hvariants : (d.isSum = true → ∀ c ∈ d.constructors, options.tagName ∉ c.properties) ↔
      ∀ c ∈ d.constructors, (DataType.variantNames d options c).Nodup := by
    simp only [DataType.nodup_variantNames_iff]
    exact ⟨fun h c hc hsum => h hsum c hc, fun h hsum c hc => h c hc hsum⟩
  rw [hvariants]
  constructor
  · intro h
    refine DataType.everywhere_item_iff.mp (h ⟨.data, DataType.item d options⟩ ?_)
    exact Declaration.mem_bundle_iff.mpr .data
  · intro h fragment hfragment
    cases Declaration.mem_bundle_iff.mp hfragment with
    | data => exact DataType.everywhere_item_iff.mpr h
    | constructor hc =>
      exact DataType.everywhere_constructorItem_iff.mpr (h _ (List.of_mem_zip hc).1)
    | fold hsum hname => exact Fold.everywhere_distinct_item d options _ _
    | prismImport hsum hemit => exact Item.everywhere_imports
    | accessor hsum hemit hc => exact Accessor.everywhere_distinct_item d options _ _
    | eqImport hemit => exact Item.everywhere_imports
    | equality hemit => exact Equality.everywhere_distinct_item d options

/-- `data Shape = Blank | Named { type :: string }` -/
def shapeDeclaration : Declaration where
  name := "Shape"
  parameters := []
  constructors := [.ofTypes "Blank" [], .ofFields "Named" [("type", .var "string")] (by decide)]
  constructors_ne_nil := List.cons_ne_nil _ _
  nodup_parameters := List.nodup_nil
  nodup_constructors := by decide

/-- The tag is called `type`, and so is the member: the constructor overwrites its tag. -/
theorem shape_tag_repeated :
    ∃ (d : Declaration) (fragment : Fragment) (node : Node),
      parse "data Shape = Blank | Named { type :: string }" = .ok d ∧
      fragment ∈ d.bundle {} ∧ fragment.item.Contains node ∧ ¬ node.propertyNames.Nodup := by
  have hparse : parse "data Shape = Blank | Named { type :: string }" =
      .ok shapeDeclaration := by
    cbv
  obtain ⟨c, name, hc, hnames⟩ : ∃ c name, (c, name) ∈ shapeDeclaration.constructors.zip
      (BundleNames.choose shapeDeclaration {}).bindings ∧
      ¬ (DataType.variantNames shapeDeclaration {} c).Nodup :=
    ⟨_, _, List.mem_of_getElem? (i := 1) rfl, by decide⟩
  obtain ⟨node, hnode⟩ :=
    not_forall.mp fun h => hnames (DataType.everywhere_constructorItem_iff.mp h)
  obtain ⟨hcontains, hrepeated⟩ := Classical.not_imp.mp hnode
  exact ⟨shapeDeclaration, _, node, hparse, Declaration.mem_bundle_iff.mpr (.constructor hc),
    hcontains, hrepeated⟩

end AlgebraicData
