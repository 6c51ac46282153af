import AlgebraicData.Proofs.Bundle.Basic
import AlgebraicData.Proofs.Bundle.Types
import AlgebraicData.Proofs.Bundle.Fold

/-!
# Going through a bundle

Most of a bundle is plain: references, literals and unions among the types, and all code but
objects.  What is not plain comes from few places.

* Function types are those of handlers, and those in the types that a declaration is written with,
  where tuples stand as well.
* Objects are those that constructors make, and object types those of variants and of handlers.

So a property of plain nodes holds everywhere in an item once it holds in these places, and for each
kind of item it is shown which of them count.  `everywhere_bundle_iff` takes all items together.
The property may ask something of the names in a plain node; the names that it comes to are those of
`Declaration.NamesSatisfy`.
-/

namespace AlgebraicData

open Target

/-! ## Plain nodes -/

namespace Target.Node

/-- The node is neither an object nor one of the types that take their parts from a declaration. -/
def IsPlain : Node → Prop
  | .type (.object _) | .type (.function _ _) | .type (.tuple _) | .expr (.object _) => False
  | .type (.ref _ _) | .type (.literal _) | .type (.union _) | .expr _ | .stmt _ => True

variable {A : String → Prop} {P : Node → Prop}

/-- The property holds of the plain nodes whose own names are as they should be. -/
def HoldsOfPlain (A : String → Prop) (P : Node → Prop) : Prop :=
  ∀ node : Node, node.IsPlain → (∀ name ∈ node.bareNames, A name) → P node

theorem HoldsOfPlain.ref (hplain : HoldsOfPlain A P) {name : String} (hname : A name)
    (args : List TypeNode) : P (.type (.ref name args)) :=
  hplain _ trivial (List.forall_mem_singleton.mpr hname)

theorem HoldsOfPlain.ident (hplain : HoldsOfPlain A P) {name : String} (hname : A name) :
    P (.expr (.ident name)) :=
  hplain _ trivial (List.forall_mem_singleton.mpr hname)

theorem HoldsOfPlain.nameless (hplain : HoldsOfPlain A P) {node : Node} (h : node.IsPlain)
    (hnames : node.bareNames = []) : P node :=
  hplain node h (hnames ▸ List.forall_mem_nil _)

theorem everywhere_named (hplain : HoldsOfPlain A P) {name : String} (hname : A name) :
    Everywhere P (.type (.named name)) :=
  everywhere_ref.mpr ⟨hplain.ref hname _, List.forall_mem_nil _⟩

/-- `x.p` -/
theorem everywhere_member_ident (hplain : HoldsOfPlain A P) {name : String} (hname : A name)
    (property : String) : Everywhere P (.expr (.member (.ident name) property)) :=
  everywhere_member.mpr
    ⟨hplain.nameless trivial rfl, everywhere_ident.mpr (hplain.ident hname)⟩

theorem everywhere_conjunction (hplain : HoldsOfPlain A P) {exprs : List Expr}
    (h : ∀ expr ∈ exprs, Everywhere P (.expr expr)) :
    Everywhere P (.expr (.conjunction exprs)) := by
  -- the conjunction nests to the left, so the induction is over what is still to be joined
  have hfoldl : ∀ (first : Expr) (rest : List Expr), Everywhere P (.expr first) →
      (∀ expr ∈ rest, Everywhere P (.expr expr)) →
      Everywhere P (.expr (rest.foldl Expr.and first)) := by
    intro first rest hfirst hrest
    induction rest generalizing first with
    | nil => exact hfirst
    | cons second rest ih =>
      obtain ⟨hsecond, hrest⟩ := List.forall_mem_cons.mp hrest
      refine ih _ ?_ hrest
      exact everywhere_binary.mpr ⟨hplain.nameless trivial rfl, hfirst, hsecond⟩
  cases exprs with
  | nil => exact everywhere_bool.mpr (hplain.nameless trivial rfl)
  | cons first rest =>
    obtain ⟨hfirst, hrest⟩ := List.forall_mem_cons.mp h
    exact hfoldl first rest hfirst hrest

end Target.Node

open Node (HoldsOfPlain)

/-! ## The names of a bundle -/

/-- The names that a bundle does not choose. -/
def bundleWords : List String :=
  ["never", "Prism", "Eq", "fromEquals", Equality.selfName, "x", "y"]

/-- The names in the plain nodes of a bundle are as they should be. -/
structure Declaration.NamesSatisfy (A : String → Prop) (d : Declaration) (options : Options) :
    Prop where
  words : ∀ name ∈ bundleWords, A name
  type : A d.name
  parameters : ∀ p ∈ d.parameters, A p.name
  members : ∀ c ∈ d.constructors, ∀ param ∈ c.params, A param.name
  matchee : A options.matcheeName
  handlersName : ∀ name, options.handlerStyle = .record name → A name
  handlers : ∀ handler ∈ (BundleNames.choose d options).handlers, A handler
  result : A (BundleNames.choose d options).result
  comparators : ∀ names ∈ Equality.comparators d, ∀ name, some name ∈ names → A name

/-- Where names do not matter. -/
theorem Declaration.namesSatisfy_true (d : Declaration) (options : Options) :
    d.NamesSatisfy (fun _ => True) options := by
  constructor <;> simp

/-! ## The types of a declaration -/

/-- The property holds everywhere in the bounds of the type parameters. -/
def Declaration.BoundsSatisfy (P : Node → Prop) (d : Declaration) : Prop :=
  ∀ p ∈ d.parameters, ∀ bound ∈ p.bound, Node.Everywhere P (.type bound.toNode)

/-- The property holds everywhere in the types of the members. -/
def Constructor.MembersSatisfy (P : Node → Prop) (c : Constructor) : Prop :=
  ∀ m ∈ c.members, Node.Everywhere P (.type m.type.toNode)

section Types

variable {A : String → Prop} {P : Node → Prop}

namespace Declaration

theorem everywhere_typeParams_iff {d : Declaration} :
    (∀ param ∈ d.typeParams, ∀ bound ∈ param.bound, Node.Everywhere P (.type bound)) ↔
      d.BoundsSatisfy P := by
  simp only [typeParams, List.forall_mem_map, BoundsSatisfy, Option.mem_map,
    forall_exists_index, and_imp, forall_apply_eq_imp_iff₂]

theorem everywhere_selfType (hplain : HoldsOfPlain A P) {d : Declaration} {options : Options}
    (hnames : d.NamesSatisfy A options) : Node.Everywhere P (.type d.selfType) := by
  refine Node.everywhere_ref.mpr ⟨hplain.ref hnames.type _, List.forall_mem_map.mpr ?_⟩
  exact fun p hp => Node.everywhere_named hplain (hnames.parameters p hp)

theorem everywhere_bottomType (hplain : HoldsOfPlain A P) {d : Declaration} {options : Options}
    (hnames : d.NamesSatisfy A options) (hbounds : d.BoundsSatisfy P) :
    Node.Everywhere P (.type d.bottomType) := by
  refine Node.everywhere_ref.mpr
    ⟨hplain.ref hnames.type _, List.forall_mem_map.mpr fun p hp => ?_⟩
  cases hbound : p.bound with
  | none => exact Node.everywhere_named hplain (hnames.words "never" (by simp [bundleWords]))
  | some bound => exact hbounds p hp bound hbound

end Declaration

theorem Constructor.everywhere_params_iff {c : Constructor} :
    (∀ param ∈ c.params, ∀ type ∈ param.type, Node.Everywhere P (.type type)) ↔
      c.MembersSatisfy P := by
  simp only [params, Param.typed, List.forall_mem_map, Option.mem_some_iff, forall_eq']
  exact List.forall_mem_zipIdx_iff (Q := fun m : Member => Node.Everywhere P (.type m.type.toNode))

end Types

/-! ## Variants -/

namespace DataType

variable {A : String → Prop} {P : Node → Prop} {d : Declaration} {options : Options}
  {c : Constructor}

theorem variantType_everywhere_iff (hplain : HoldsOfPlain A P) :
    Node.Everywhere P (.type (.object (variantProperties d options c))) ↔
      P (.type (.object (variantProperties d options c))) ∧ c.MembersSatisfy P := by
  refine Node.everywhere_objectType.trans (and_congr_right fun _ => ?_)
  have htag : ∀ property ∈ (if d.isSum then [⟨true, options.tagName, .literal c.name⟩] else [] :
      List (Property TypeNode)), Node.Everywhere P (.type property.type) := by
    split
    · exact List.forall_mem_singleton.mpr
        (Node.everywhere_literal.mpr (hplain.nameless trivial rfl))
    · exact List.forall_mem_nil _
  rw [variantProperties, List.forall_mem_append, and_iff_right htag, List.forall_mem_map]
  exact List.forall_mem_zipIdx_iff (Q := fun m : Member => Node.Everywhere P (.type m.type.toNode))

theorem item_everywhere_iff (hplain : HoldsOfPlain A P) :
    (item d options).Everywhere P ↔ d.BoundsSatisfy P ∧ ∀ c ∈ d.constructors,
      P (.type (.object (variantProperties d options c))) ∧ c.MembersSatisfy P := by
  simp only [← variantType_everywhere_iff hplain]
  rw [item, Item.everywhere_typeAlias, Declaration.everywhere_typeParams_iff]
  refine and_congr_right fun _ => ?_
  rw [← List.forall_mem_map (f := fun c => TypeNode.object (variantProperties d options c))
    (P := fun type => Node.Everywhere P (.type type))]
  -- one variant stands alone, and several make up a union
  generalize d.constructors.map _ = variants
  split
  · simp
  · exact Node.everywhere_union.trans (and_iff_right (hplain.nameless trivial rfl))

/-- The values in the object of a constructor are strings and parameters. -/
theorem everywhere_variantObject (hstr : ∀ value, P (.expr (.str value)))
    (hident : ∀ param ∈ c.params, P (.expr (.ident param.name))) :
    Node.Everywhere P (.expr (variantObject d options c)) ↔
      P (.expr (variantObject d options c)) := by
  refine Node.everywhere_object.trans (and_iff_left (List.forall_mem_append.mpr ⟨?_, ?_⟩))
  · cases d.isSum <;> simp [hstr]
  · refine List.forall_mem_map.mpr fun x hx value hvalue => ?_
    simp only [Option.mem_def] at hvalue
    split at hvalue
    · cases hvalue
    · obtain rfl := Option.some.inj hvalue
      exact Node.everywhere_ident.mpr (List.forall_mem_map.mp hident x hx)

theorem constructorItem_everywhere_iff (hplain : HoldsOfPlain A P)
    (hnames : d.NamesSatisfy A options) (hparams : ∀ param ∈ c.params, A param.name)
    (hbounds : d.BoundsSatisfy P) (hmembers : c.MembersSatisfy P) {name : String} :
    (constructorItem d options c name).Everywhere P ↔
      P (.expr (variantObject d options c)) := by
  have hobject : Node.Everywhere P (.expr (variantObject d options c)) ↔
      P (.expr (variantObject d options c)) :=
    everywhere_variantObject (fun _ => hplain.nameless trivial rfl)
      fun param hparam => hplain.ident (hparams param hparam)
  rw [constructorItem]
  split
  · rw [Item.everywhere_const, hobject,
      and_iff_right (Declaration.everywhere_bottomType hplain hnames hbounds)]
  · rw [Item.everywhere_function, Declaration.everywhere_typeParams_iff, and_iff_right hbounds,
      Constructor.everywhere_params_iff, and_iff_right hmembers,
      and_iff_right (Declaration.everywhere_selfType hplain hnames), List.forall_mem_singleton,
      Node.everywhere_ret, hobject]
    exact and_iff_right (hplain.nameless trivial rfl)

end DataType

/-! ## Folds -/

namespace Fold

/-- The properties of the object of handlers, one for each constructor. -/
def handlerProperties (d : Declaration) (names : BundleNames) (eager : Bool) :
    List (Property TypeNode) :=
  d.constructors.zipWith (fun c handler => ⟨false, handler, handlerType names eager c⟩)
    names.handlers

theorem map_name_handlerProperties (d : Declaration) (options : Options) (eager : Bool) :
    (handlerProperties d (.choose d options) eager).map (·.name) =
      (BundleNames.choose d options).handlers := by
  rw [handlerProperties, ← List.map_uncurry_zip_eq_zipWith, List.map_map]
  exact List.map_snd_zip (BundleNames.length_handlers d options).le

variable {A : String → Prop} {P : Node → Prop} {d : Declaration} {options : Options}

theorem handlerType_everywhere (hplain : HoldsOfPlain A P) (hnames : d.NamesSatisfy A options)
    {c : Constructor} (hmembers : c.MembersSatisfy P)
    (hfunction : ∀ result, P (.type (.function c.params result))) (eager : Bool) :
    Node.Everywhere P (.type (handlerType (.choose d options) eager c)) := by
  have hresult := Node.everywhere_named hplain hnames.result
  rw [handlerType]
  split
  · exact hresult
  · exact Node.everywhere_function.mpr
      ⟨hfunction _, Constructor.everywhere_params_iff.mpr hmembers, hresult⟩

theorem handlerParams_everywhere (hplain : HoldsOfPlain A P) (hnames : d.NamesSatisfy A options)
    (hmembers : ∀ c ∈ d.constructors, c.MembersSatisfy P)
    (hfunction : ∀ c ∈ d.constructors, ∀ result, P (.type (.function c.params result)))
    {eager : Bool} (hobject : P (.type (.object (handlerProperties d (.choose d options) eager)))) :
    ∀ param ∈ handlerParams d options (.choose d options) eager, ∀ type ∈ param.type,
      Node.Everywhere P (.type type) := by
  have htypes : ∀ x ∈ d.constructors.zip (BundleNames.choose d options).handlers,
      Node.Everywhere P (.type (handlerType (.choose d options) eager x.1)) := by
    intro x hx
    have hc := (List.of_mem_zip hx).1
    exact handlerType_everywhere hplain hnames (hmembers _ hc) (hfunction _ hc) eager
  rw [handlerParams]
  cases options.handlerStyle with
  | positional =>
    simp only [← List.map_uncurry_zip_eq_zipWith, List.forall_mem_map]
    intro x hx type hmem
    obtain rfl := Option.some.inj hmem
    exact htypes x hx
  | record handlersName =>
    refine List.forall_mem_singleton.mpr fun type hmem => ?_
    obtain rfl := Option.some.inj hmem
    refine Node.everywhere_objectType.mpr ⟨hobject, ?_⟩
    simp only [← List.map_uncurry_zip_eq_zipWith, List.forall_mem_map]
    exact htypes

theorem result_everywhere (hplain : HoldsOfPlain A P) (hnames : d.NamesSatisfy A options)
    {handler : String} (hhandler : A handler) (eager : Bool) (c : Constructor) :
    Node.Everywhere P (.expr (result options eager c handler)) := by
  have hhandlerExpr : Node.Everywhere P (.expr (handlerExpr options handler)) := by
    rw [handlerExpr]
    split
    · exact Node.everywhere_ident.mpr (hplain.ident hhandler)
    · rename_i handlersName hstyle
      exact Node.everywhere_member_ident hplain (hnames.handlersName handlersName hstyle) handler
  rw [result]
  split
  · exact hhandlerExpr
  · refine Node.everywhere_call.mpr
      ⟨hplain.nameless trivial rfl, hhandlerExpr, List.forall_mem_map.mpr fun x _ => ?_⟩
    exact Node.everywhere_member_ident hplain hnames.matchee _

theorem item_everywhere (hplain : HoldsOfPlain A P) (hnames : d.NamesSatisfy A options)
    (hbounds : d.BoundsSatisfy P) (hmembers : ∀ c ∈ d.constructors, c.MembersSatisfy P)
    (hfunction : ∀ c ∈ d.constructors, ∀ result, P (.type (.function c.params result)))
    {eager : Bool} (hobject : P (.type (.object (handlerProperties d (.choose d options) eager))))
    (name : String) : (item d options (.choose d options) name eager).Everywhere P := by
  refine Item.everywhere_function.mpr
    ⟨?_, ?_, Node.everywhere_named hplain hnames.result, List.forall_mem_singleton.mpr ?_⟩
  · refine List.forall_mem_append.mpr ⟨Declaration.everywhere_typeParams_iff.mpr hbounds, ?_⟩
    simp
  · refine List.forall_mem_cons.mpr ⟨fun type hmem => ?_,
      handlerParams_everywhere hplain hnames hmembers hfunction hobject⟩
    obtain rfl := Option.some.inj hmem
    exact Declaration.everywhere_selfType hplain hnames
  · refine Node.everywhere_switch.mpr ⟨hplain.nameless trivial rfl,
      Node.everywhere_member_ident hplain hnames.matchee options.tagName, ?_⟩
    simp only [← List.map_uncurry_zip_eq_zipWith, List.forall_mem_map]
    intro x hx
    have hhandler := hnames.handlers x.2 (List.of_mem_zip hx).2
    exact ⟨Node.everywhere_str.mpr (hplain.nameless trivial rfl), Node.everywhere_ret.mpr
      ⟨hplain.nameless trivial rfl, result_everywhere hplain hnames hhandler eager x.1⟩⟩

end Fold

/-! ## Accessors and the equality -/

theorem Accessor.item_everywhere {A : String → Prop} {P : Node → Prop}
    (hplain : HoldsOfPlain A P) {d : Declaration} {options : Options}
    (hnames : d.NamesSatisfy A options) (hbounds : d.BoundsSatisfy P) (c : Constructor)
    (name : String) : (item d options c name).Everywhere P := by
  have hword : A "Prism" := hnames.words _ (by simp [bundleWords])
  have hself := Declaration.everywhere_selfType hplain hnames
  have htype : Node.Everywhere P (.type (.ref "Prism" [d.selfType, d.selfType])) :=
    Node.everywhere_ref.mpr ⟨hplain.ref hword _, by simp [hself]⟩
  have htest : Node.Everywhere P (.expr (.strictEq
      (.member (.ident options.matcheeName) options.tagName) (.str c.name))) :=
    Node.everywhere_binary.mpr ⟨hplain.nameless trivial rfl,
      Node.everywhere_member_ident hplain hnames.matchee _,
      Node.everywhere_str.mpr (hplain.nameless trivial rfl)⟩
  have harrow : Node.Everywhere P (.expr (.arrow [options.matcheeName] (.strictEq
      (.member (.ident options.matcheeName) options.tagName) (.str c.name)))) :=
    Node.everywhere_arrow.mpr
      ⟨hplain _ trivial (List.forall_mem_singleton.mpr hnames.matchee), htest⟩
  have hprism : Node.Everywhere P (.expr (prism options c)) :=
    Node.everywhere_call.mpr ⟨hplain.nameless trivial rfl,
      Node.everywhere_member_ident hplain hword _, List.forall_mem_singleton.mpr harrow⟩
  rw [item]
  split
  · refine Item.everywhere_function.mpr ⟨Declaration.everywhere_typeParams_iff.mpr hbounds,
      List.forall_mem_nil _, htype, List.forall_mem_singleton.mpr ?_⟩
    exact Node.everywhere_ret.mpr ⟨hplain.nameless trivial rfl, hprism⟩
  · exact Item.everywhere_const.mpr ⟨htype, hprism⟩

namespace Equality

variable {A : String → Prop} {P : Node → Prop} {d : Declaration} {options : Options}

theorem eqType_everywhere (hplain : HoldsOfPlain A P) (hnames : d.NamesSatisfy A options)
    {type : TypeNode} (h : Node.Everywhere P (.type type)) :
    Node.Everywhere P (.type (eqType type)) := by
  have hword : A "Eq" := hnames.words _ (by simp [bundleWords])
  exact Node.everywhere_ref.mpr ⟨hplain.ref hword _, List.forall_mem_singleton.mpr h⟩

theorem comparatorParams_everywhere (hplain : HoldsOfPlain A P)
    (hnames : d.NamesSatisfy A options) (hmembers : ∀ c ∈ d.constructors, c.MembersSatisfy P) :
    ∀ param ∈ comparatorParams d, ∀ type ∈ param.type, Node.Everywhere P (.type type) := by
  simp only [comparatorParams, List.forall_mem_flatMap, List.forall_mem_filterMap]
  intro row hrow entry hentry param hparam type hmem
  obtain ⟨name, -, rfl⟩ := Option.map_eq_some_iff.mp hparam
  obtain rfl := Option.some.inj hmem
  have hmember := hmembers _ (List.of_mem_zip hrow).1 _ (List.of_mem_zip hentry).1
  exact eqType_everywhere hplain hnames hmember

/-- `x.p` and `y.p`, for the values that are compared. -/
theorem compared_everywhere (hplain : HoldsOfPlain A P) (hnames : d.NamesSatisfy A options)
    (property : String) :
    Node.Everywhere P (.expr (.member (.ident "x") property)) ∧
      Node.Everywhere P (.expr (.member (.ident "y") property)) :=
  ⟨Node.everywhere_member_ident hplain (hnames.words _ (by simp [bundleWords])) property,
    Node.everywhere_member_ident hplain (hnames.words _ (by simp [bundleWords])) property⟩

theorem compareMembers_everywhere (hplain : HoldsOfPlain A P) (hnames : d.NamesSatisfy A options)
    (c : Constructor) {names : List (Option String)} (hmem : names ∈ comparators d) :
    Node.Everywhere P (.expr (compareMembers c names)) := by
  refine Node.everywhere_conjunction hplain (List.forall_mem_map.mpr fun x hx => ?_)
  have hcomparator : A (x.1.2.getD selfName) := by
    cases hname : x.1.2 with
    | none => exact hnames.words _ (by simp [bundleWords])
    | some name =>
      have hzip := List.fst_mem_of_mem_zipIdx hx
      exact hnames.comparators names hmem name (hname ▸ (List.of_mem_zip hzip).2)
  have hread := compared_everywhere hplain hnames (x.1.1.property x.2)
  refine Node.everywhere_call.mpr ⟨hplain.nameless trivial rfl,
    Node.everywhere_member_ident hplain hcomparator _, ?_⟩
  exact List.forall_mem_cons.mpr ⟨hread.1, List.forall_mem_singleton.mpr hread.2⟩

theorem compareVariant_everywhere (hplain : HoldsOfPlain A P) (hnames : d.NamesSatisfy A options)
    (c : Constructor) {names : List (Option String)} (hmem : names ∈ comparators d) :
    Node.Everywhere P (.stmt (compareVariant options c names)) := by
  have hread := compared_everywhere hplain hnames options.tagName
  have htest : ∀ {tag : Expr}, Node.Everywhere P (.expr tag) →
      Node.Everywhere P (.expr (.strictEq tag (.str c.name))) := fun htag =>
    Node.everywhere_binary.mpr ⟨hplain.nameless trivial rfl, htag,
      Node.everywhere_str.mpr (hplain.nameless trivial rfl)⟩
  refine Node.everywhere_ifThen.mpr
    ⟨hplain.nameless trivial rfl, ?_, List.forall_mem_singleton.mpr ?_⟩
  · exact Node.everywhere_binary.mpr
      ⟨hplain.nameless trivial rfl, htest hread.1, htest hread.2⟩
  · exact Node.everywhere_ret.mpr
      ⟨hplain.nameless trivial rfl, compareMembers_everywhere hplain hnames c hmem⟩

theorem comparison_everywhere (hplain : HoldsOfPlain A P) (hnames : d.NamesSatisfy A options) :
    Node.Everywhere P (.expr (comparison d options)) := by
  have hbool : ∀ value, Node.Everywhere P (.expr (.bool value)) :=
    fun value => Node.everywhere_bool.mpr (hplain.nameless trivial rfl)
  have hparams : ∀ name ∈ ["x", "y"], A name := fun name hname =>
    hnames.words name (by simp_all [bundleWords])
  rw [comparison]
  split
  · have hread := compared_everywhere hplain hnames options.tagName
    exact Node.everywhere_arrow.mpr ⟨hplain _ trivial hparams,
      Node.everywhere_binary.mpr ⟨hplain.nameless trivial rfl, hread.1, hread.2⟩⟩
  · exact Node.everywhere_arrow.mpr ⟨hplain.nameless trivial rfl, hbool true⟩
  · refine Node.everywhere_arrowBlock.mpr
      ⟨hplain _ trivial hparams, List.forall_mem_append.mpr ⟨?_, ?_⟩⟩
    · simp only [← List.map_uncurry_zip_eq_zipWith, List.forall_mem_map]
      exact fun x hx => compareVariant_everywhere hplain hnames x.1 (List.of_mem_zip hx).2
    · exact List.forall_mem_singleton.mpr
        (Node.everywhere_ret.mpr ⟨hplain.nameless trivial rfl, hbool false⟩)
  · refine Node.everywhere_arrowBlock.mpr ⟨hplain _ trivial hparams, ?_⟩
    simp only [← List.map_uncurry_zip_eq_zipWith, List.forall_mem_map]
    exact fun x hx => Node.everywhere_ret.mpr ⟨hplain.nameless trivial rfl,
      compareMembers_everywhere hplain hnames x.1 (List.of_mem_zip hx).2⟩

theorem item_everywhere (hplain : HoldsOfPlain A P) (hnames : d.NamesSatisfy A options)
    (hbounds : d.BoundsSatisfy P) (hmembers : ∀ c ∈ d.constructors, c.MembersSatisfy P) :
    (item d options).Everywhere P := by
  have htype := eqType_everywhere hplain hnames (Declaration.everywhere_selfType hplain hnames)
  have hself : A selfName := hnames.words _ (by simp [bundleWords])
  have hequality : Node.Everywhere P (.expr (fromEquals (comparison d options))) := by
    refine Node.everywhere_call.mpr ⟨hplain.nameless trivial rfl, ?_, ?_⟩
    · exact Node.everywhere_ident.mpr (hplain.ident (hnames.words _ (by simp [bundleWords])))
    · exact List.forall_mem_singleton.mpr (comparison_everywhere hplain hnames)
  refine Item.everywhere_function.mpr ⟨Declaration.everywhere_typeParams_iff.mpr hbounds,
    comparatorParams_everywhere hplain hnames hmembers, htype, ?_⟩
  split
  · refine List.forall_mem_cons.mpr ⟨Node.everywhere_const.mpr
      ⟨hplain _ trivial (List.forall_mem_singleton.mpr hself), ?_, hequality⟩,
      List.forall_mem_singleton.mpr (Node.everywhere_ret.mpr ⟨hplain.nameless trivial rfl, ?_⟩)⟩
    · rintro _ ⟨⟩
      exact htype
    · exact Node.everywhere_ident.mpr (hplain.ident hself)
  · exact List.forall_mem_singleton.mpr
      (Node.everywhere_ret.mpr ⟨hplain.nameless trivial rfl, hequality⟩)

end Equality

/-! ## Bundles -/

/-- A property that holds of the objects of a bundle and of its handlers holds everywhere in it if
it holds in the types of the declaration. -/
theorem everywhere_bundle_iff {A : String → Prop} {P : Node → Prop} (hplain : HoldsOfPlain A P)
    (htype : ∀ properties, P (.type (.object properties))) {d : Declaration} {options : Options}
    (hnames : d.NamesSatisfy A options)
    (hobject : ∀ c ∈ d.constructors, P (.expr (DataType.variantObject d options c)))
    (hfunction : ∀ c ∈ d.constructors, ∀ result, P (.type (.function c.params result))) :
    (∀ fragment ∈ d.bundle options, fragment.item.Everywhere P) ↔
      d.BoundsSatisfy P ∧ ∀ c ∈ d.constructors, c.MembersSatisfy P := by
  constructor
  · -- the declared type repeats all that the declaration is written with
    intro h
    have hdata := h _ (Declaration.mem_bundle_iff.mpr .data)
    obtain ⟨hbounds, hvariants⟩ := (DataType.item_everywhere_iff hplain).mp hdata
    exact ⟨hbounds, fun c hc => (hvariants c hc).2⟩
  · rintro ⟨hbounds, hmembers⟩ fragment hfragment
    cases Declaration.mem_bundle_iff.mp hfragment with
    | data =>
      exact (DataType.item_everywhere_iff hplain).mpr
        ⟨hbounds, fun c hc => ⟨htype _, hmembers c hc⟩⟩
    | constructor hzip =>
      have hc := (List.of_mem_zip hzip).1
      exact (DataType.constructorItem_everywhere_iff hplain hnames (hnames.members _ hc) hbounds
        (hmembers _ hc)).mpr (hobject _ hc)
    | fold => exact Fold.item_everywhere hplain hnames hbounds hmembers hfunction (htype _) _
    | prismImport => exact Item.everywhere_imports
    | accessor => exact Accessor.item_everywhere hplain hnames hbounds _ _
    | eqImport => exact Item.everywhere_imports
    | equality => exact Equality.item_everywhere hplain hnames hbounds hmembers

end AlgebraicData
