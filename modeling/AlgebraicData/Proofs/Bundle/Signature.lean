import AlgebraicData.Proofs.Bundle.Construction
import AlgebraicData.Proofs.Bundle.Traversal

/-!
# The names in signatures

Three kinds of names are added to what a declaration says: the parameters that stand for the members
of a constructor, the parameters of a fold, and the type parameter for the result of a fold.

* The parameters of a constructor's function and of its handlers are the same, so they differ in one
  place exactly if they do in the other, that is, if the fields do not clash.
* Handlers are chosen apart from one another and from the value of a fold.  The object that holds them
  is called as the options say, and so is the value; nothing keeps these two apart.
* The type parameter for the result is chosen apart from the declared names only.  A declaration may
  refer to types that it does not declare, and such a reference is bound to the result if it is
  called like it.
-/

namespace AlgebraicData

open Target

/-! ## The types of handlers -/

namespace Fold

/-- The types that a fold has for its handlers, in order. -/
def handlerTypes (style : HandlerStyle) : Item → List TypeNode
  | .function _ _ (_ :: params) _ _ =>
    match style, params with
    | .positional, params => params.filterMap (·.type)
    | .record _, [⟨_, some (.object properties)⟩] => properties.map (·.type)
    | .record _, _ => []
  | _ => []

theorem handlerTypes_item (d : Declaration) (options : Options) (name : String) (eager : Bool) :
    handlerTypes options.handlerStyle (item d options (.choose d options) name eager) =
      d.constructors.map (handlerType (.choose d options) eager) := by
  have hlen := BundleNames.length_handlers d options
  have hconstructors : d.constructors.map (handlerType (.choose d options) eager) =
      (d.constructors.zip (BundleNames.choose d options).handlers).map
        fun x => handlerType (.choose d options) eager x.1 := by
    conv_lhs => rw [← List.map_fst_zip hlen.ge]
    rw [List.map_map]
    rfl
  rw [item, hconstructors]
  simp only [handlerParams]
  cases options.handlerStyle with
  | positional =>
    simp only [handlerTypes, ← List.map_uncurry_zip_eq_zipWith, List.filterMap_map]
    exact congrFun List.filterMap_eq_map _
  | record handlersName =>
    simp only [handlerTypes, Param.typed, ← List.map_uncurry_zip_eq_zipWith, List.map_map]
    rfl

theorem handlerType_of_not_isNullary {c : Constructor} (h : c.isNullary = false)
    (names : BundleNames) (eager : Bool) :
    handlerType names eager c = .function c.params (.named names.result) := by
  rw [handlerType, isPlain, h, Bool.and_false]
  rfl

theorem exists_item_of_mem {d : Declaration} {options : Options} {fold : Item}
    (h : fold ∈ d.itemsOf options .fold) :
    ∃ name eager, fold = item d options (.choose d options) name eager := by
  cases Declaration.mem_bundle_iff.mp (Declaration.mem_itemsOf_iff.mp h) with
  | fold hsum hname => exact ⟨_, _, rfl⟩

end Fold

/-! ## Parameters for members -/

/-- The function of a constructor with members has a parameter for each member, and so has its
handler in every fold.  In both places the parameters differ exactly if the fields do not clash. -/
theorem parameters_distinct_iff {d : Declaration} {i : Nat} {c : Constructor}
    (hc : d.constructors[i]? = some c) (hmembers : c.isNullary = false) (options : Options) :
    (∃ name typeParams params result body,
      (d.itemsOf options .constructor)[i]? = some (.function name typeParams params result body) ∧
      params.length = c.members.length ∧ ((params.map (·.name)).Nodup ↔ ¬ c.ParamsClash)) ∧
    ∀ fold ∈ d.itemsOf options .fold, ∃ params result,
      (Fold.handlerTypes options.handlerStyle fold)[i]? = some (.function params result) ∧
      params.length = c.members.length ∧ ((params.map (·.name)).Nodup ↔ ¬ c.ParamsClash) := by
  have hlen : c.params.length = c.members.length := by
    rw [Constructor.params, List.length_map, List.length_zipIdx]
  constructor
  · obtain ⟨name, hitem⟩ := exists_constructorItem hc options
    have hfunction : DataType.constructorItem d options c name = .function name d.typeParams
        c.params d.selfType [.ret (DataType.variantObject d options c)] := by
      rw [DataType.constructorItem, hmembers]
      rfl
    rw [hfunction] at hitem
    exact ⟨_, _, _, _, _, hitem, hlen, c.nodup_params_iff⟩
  · intro fold hfold
    obtain ⟨name, eager, rfl⟩ := Fold.exists_item_of_mem hfold
    refine ⟨c.params, .named (BundleNames.choose d options).result, ?_, hlen, c.nodup_params_iff⟩
    rw [Fold.handlerTypes_item, List.getElem?_map, hc, Option.map_some,
      Fold.handlerType_of_not_isNullary hmembers]

/-- Both fields of `New` are renamed, to `class_` and `value1`, and the parameters still differ. -/
theorem keyword_parameters_distinct :
    ∃ (c : Constructor) (name : String) (typeParams : List TypeParam)
      (params : List (Param TypeNode)) (result : TypeNode) (body : List Stmt),
      keywordDeclaration.constructors[1]? = some c ∧ c.isNullary = false ∧
      (keywordDeclaration.itemsOf {} .constructor)[1]? =
        some (.function name typeParams params result body) ∧
      (params.map (·.name)).Nodup := by
  obtain ⟨c, hc, hmembers, hclash⟩ : ∃ c, keywordDeclaration.constructors[1]? = some c ∧
      c.isNullary = false ∧ (c.params.map (·.name)).Nodup := ⟨_, rfl, rfl, by decide⟩
  obtain ⟨⟨name, typeParams, params, result, body, hitem, -, hiff⟩, -⟩ :=
    parameters_distinct_iff hc hmembers {}
  exact ⟨c, name, typeParams, params, result, body, hc, hmembers, hitem,
    hiff.mpr (c.nodup_params_iff.mp hclash)⟩

/-- `data Pair = Pair { class :: string, class_ :: number }` -/
def pairDeclaration : Declaration where
  name := "Pair"
  parameters := []
  constructors := [
    .ofFields "Pair" [("class", .var "string"), ("class_", .var "number")] (by decide)]
  constructors_ne_nil := List.cons_ne_nil _ _
  nodup_parameters := List.nodup_nil
  nodup_constructors := by decide

/-- A field `class` is renamed to `class_`, which is a field too. -/
theorem pair_parameter_repeated :
    ∃ (d : Declaration) (c : Constructor) (name : String) (typeParams : List TypeParam)
      (params : List (Param TypeNode)) (result : TypeNode) (body : List Stmt),
      parse "data Pair = Pair { class :: string, class_ :: number }" = .ok d ∧
      d.constructors[0]? = some c ∧ c.isNullary = false ∧
      (d.itemsOf {} .constructor)[0]? = some (.function name typeParams params result body) ∧
      ¬ (params.map (·.name)).Nodup := by
  have hparse : parse "data Pair = Pair { class :: string, class_ :: number }" =
      .ok pairDeclaration := by
    cbv
  exact ⟨pairDeclaration, _, _, _, _, _, _, hparse, rfl, rfl, rfl, by decide⟩

/-! ## Parameters of folds -/

/-- The parameters of a function. -/
def Target.Item.params : Item → List (Param TypeNode)
  | .function _ _ params _ _ => params
  | .typeAlias .. | .const .. | .imports .. => []

namespace Fold

theorem map_name_params_item (d : Declaration) (options : Options) (name : String)
    (eager : Bool) :
    (item d options (.choose d options) name eager).params.map (·.name) =
      options.matcheeName :: handlerParamNames d options := by
  rw [← map_name_handlerParams d options eager]
  rfl

/-- The parameters of a fold differ unless the object of handlers is called like the value. -/
theorem nodup_paramNames_iff (d : Declaration) (options : Options) :
    (options.matcheeName :: handlerParamNames d options).Nodup ↔ StyleApart options := by
  unfold handlerParamNames StyleApart
  cases options.handlerStyle with
  | positional => simpa using BundleNames.nodup_handlers d options
  | record handlersName => simp [eq_comm]

end Fold

/-- A sum has folds.  The parameters of each have different names exactly if no object of handlers is
called like the value.  Where there is such an object, it has a property for each constructor, and the
properties have different names. -/
theorem fold_parameters_distinct_iff {d : Declaration} (hsum : d.isSum = true)
    (options : Options) :
    d.itemsOf options .fold ≠ [] ∧
    ∀ fold ∈ d.itemsOf options .fold,
      ((fold.params.map (·.name)).Nodup ↔ Fold.StyleApart options) ∧
      ∀ handlersName, options.handlerStyle = .record handlersName →
        ∃ properties, fold.params = [.typed options.matcheeName d.selfType,
            .typed handlersName (.object properties)] ∧
          properties.length = d.constructors.length ∧ (properties.map (·.name)).Nodup := by
  constructor
  · intro hnil
    have hlen := length_itemsOf_fold hsum options
    rw [hnil] at hlen
    cases hnullary : d.hasNullary <;> simp [hnullary] at hlen
  · intro fold hfold
    obtain ⟨name, eager, rfl⟩ := Fold.exists_item_of_mem hfold
    constructor
    · rw [Fold.map_name_params_item, Fold.nodup_paramNames_iff]
    · intro handlersName hstyle
      have hnames := Fold.map_name_handlerProperties d options eager
      refine ⟨Fold.handlerProperties d (.choose d options) eager, ?_, ?_, ?_⟩
      · rw [Fold.item, Item.params, Fold.handlerParams, hstyle]
        rfl
      · rw [← List.length_map (·.name), hnames, BundleNames.length_handlers]
      · rw [hnames]
        exact (List.nodup_cons.mp (BundleNames.nodup_handlers d options)).2

/-- An object of handlers called `handlers` leaves the name of the value alone. -/
theorem maybe_record_fold_parameters_distinct :
    maybeDeclaration.isSum = true ∧
    ∃ fold ∈ maybeDeclaration.itemsOf { handlerStyle := .record "handlers" } .fold,
      (fold.params.map (·.name)).Nodup := by
  have hsum : maybeDeclaration.isSum = true := by decide
  obtain ⟨hne, hfolds⟩ :=
    fold_parameters_distinct_iff hsum { handlerStyle := .record "handlers" }
  obtain ⟨fold, hfold⟩ := List.exists_mem_of_ne_nil _ hne
  refine ⟨hsum, fold, hfold, (hfolds fold hfold).1.mpr fun handlersName hstyle => ?_⟩
  obtain rfl := HandlerStyle.record.inj hstyle
  decide

/-- An object of handlers that is called `fa`, as the value is unless the options say otherwise. -/
theorem maybe_fold_parameter_repeated :
    ∃ d, parse "data Maybe A = Nothing | Just A" = .ok d ∧ d.isSum = true ∧
      ∃ fold ∈ d.itemsOf { handlerStyle := .record "fa" } .fold,
        ¬ (fold.params.map (·.name)).Nodup := by
  have hparse : parse "data Maybe A = Nothing | Just A" = .ok maybeDeclaration := by cbv
  have hsum : maybeDeclaration.isSum = true := by decide
  have hlen : 0 < (maybeDeclaration.itemsOf { handlerStyle := .record "fa" } .fold).length := by
    rw [length_itemsOf_fold hsum]
    decide
  obtain ⟨fold, hfold⟩ := List.exists_mem_of_length_pos hlen
  refine ⟨maybeDeclaration, hparse, hsum, fold, hfold, ?_⟩
  obtain ⟨name, eager, rfl⟩ := Fold.exists_item_of_mem hfold
  rw [Fold.map_name_params_item, Fold.nodup_paramNames_iff]
  exact fun hstyle => hstyle "fa" rfl rfl

/-! ## The type parameter for the result -/

namespace Declaration

/-- The names that the declaration makes known in its types. -/
def declaredNames (d : Declaration) : List String :=
  d.parameters.map (·.name) ++ [d.name]

/-- The names that the types in the declaration refer to, at any depth: those of the bounds and
those of the members. -/
def references (d : Declaration) : List String :=
  (d.parameters.filterMap (·.bound)).flatMap (·.references) ++
    d.constructors.flatMap fun c => c.members.flatMap (·.type.references)

theorem refersTo_selfType_iff {d : Declaration} {name : String} :
    d.selfType.RefersTo name ↔ name ∈ d.declaredNames := by
  rw [selfType, TypeNode.refersTo_ref, declaredNames]
  simp [TypeNode.named, TypeNode.refersTo_ref, or_comm, eq_comm]

end Declaration

namespace Fold

/-- The types of a function type's parameters. -/
def argumentTypes : TypeNode → List TypeNode
  | .function params _ => params.filterMap (·.type)
  | _ => []

/-- The types in the signature of a fold that a declaration gives it: the bounds of the type
parameters, the type of the value and the types of what the handlers take. -/
def sourceTypes (style : HandlerStyle) : Item → List TypeNode
  | .function name typeParams params result body =>
    typeParams.filterMap (·.bound) ++ (params.take 1).filterMap (·.type) ++
      (handlerTypes style (.function name typeParams params result body)).flatMap argumentTypes
  | _ => []

theorem argumentTypes_handlerType (names : BundleNames) (eager : Bool) (c : Constructor) :
    argumentTypes (handlerType names eager c) = c.members.map (·.type.toNode) := by
  cases hnullary : c.isNullary with
  | true =>
    have hmembers : c.members = [] := List.isEmpty_iff.mp hnullary
    rw [handlerType, Constructor.params, hmembers]
    split <;> rfl
  | false =>
    rw [handlerType_of_not_isNullary hnullary, argumentTypes, Constructor.params,
      List.filterMap_map]
    change c.members.zipIdx.filterMap (some ∘ ((·.type.toNode) ∘ Prod.fst)) = _
    rw [List.filterMap_eq_map, ← List.map_map, List.zipIdx_map_fst]

theorem sourceTypes_item (d : Declaration) (options : Options) (name : String) (eager : Bool) :
    sourceTypes options.handlerStyle (item d options (.choose d options) name eager) =
      (d.parameters.filterMap (·.bound)).map (·.toNode) ++ [d.selfType] ++
        d.constructors.flatMap fun c => c.members.map (·.type.toNode) := by
  have hbounds : (d.typeParams ++
      [(⟨(BundleNames.choose d options).result, none⟩ : TypeParam)]).filterMap (·.bound) =
      (d.parameters.filterMap (·.bound)).map (·.toNode) := by
    rw [List.filterMap_append, Declaration.typeParams, List.filterMap_map, List.map_filterMap]
    exact List.append_nil _
  have hhandlers : (handlerTypes options.handlerStyle
      (item d options (.choose d options) name eager)).flatMap argumentTypes =
      d.constructors.flatMap fun c => c.members.map (·.type.toNode) := by
    rw [handlerTypes_item, List.flatMap_map]
    simp only [argumentTypes_handlerType]
  rw [← hhandlers, ← hbounds]
  rfl

/-- What a fold takes from the declaration refers to the names that the declaration declares and to
those that it refers to. -/
theorem exists_refersTo_iff {d : Declaration} {name : String} (hname : name ≠ "undefined")
    (options : Options) (foldName : String) (eager : Bool) :
    (∃ type ∈ sourceTypes options.handlerStyle (item d options (.choose d options) foldName eager),
      type.RefersTo name) ↔ name ∈ d.declaredNames ∨ name ∈ d.references := by
  have hbounds : (∃ type ∈ (d.parameters.filterMap (·.bound)).map (·.toNode),
      type.RefersTo name) ↔
      name ∈ (d.parameters.filterMap (·.bound)).flatMap (·.references) := by
    simp [TypeExpr.refersTo_toNode_iff hname]
  have hmembers : (∃ type ∈ d.constructors.flatMap fun c => c.members.map (·.type.toNode),
      type.RefersTo name) ↔
      name ∈ d.constructors.flatMap fun c => c.members.flatMap (·.type.references) := by
    simp [TypeExpr.refersTo_toNode_iff hname, and_assoc]
  rw [sourceTypes_item, Declaration.references, List.mem_append, ← hbounds, ← hmembers,
    ← Declaration.refersTo_selfType_iff]
  simp only [List.mem_append, List.mem_singleton, or_and_right, exists_or, exists_eq_left]
  exact or_assoc.trans or_left_comm

end Fold

/-- The type parameter for the result of the folds is the first of `R`, `R1`, `R2`, … that is not
declared.  Of what a fold takes from the declaration, a reference is bound to it exactly if the
declaration refers to that name without declaring it. -/
theorem fold_result_captures_iff (d : Declaration) (options : Options) :
    (∃ n, (BundleNames.choose d options).result = Scope.candidate "R" n ∧
      ∀ k < n, Scope.candidate "R" k ∈ d.declaredNames) ∧
    (BundleNames.choose d options).result ∉ d.declaredNames ∧
    ∀ fold ∈ d.itemsOf options .fold,
      (∃ name params result body, fold = .function name
        (d.typeParams ++ [⟨(BundleNames.choose d options).result, none⟩]) params result body) ∧
      ((∃ type ∈ Fold.sourceTypes options.handlerStyle fold,
        type.RefersTo (BundleNames.choose d options).result) ↔
        (BundleNames.choose d options).result ∈ d.references) := by
  have hresult : (BundleNames.choose d options).result = Scope.fresh ⟨d.declaredNames⟩ "R" := rfl
  have hfree : (BundleNames.choose d options).result ∉ d.declaredNames :=
    Scope.fresh_notMem ⟨d.declaredNames⟩ "R"
  have hundefined : (BundleNames.choose d options).result ≠ "undefined" := by
    intro heq
    have hprefix := Scope.prefix_fresh ⟨d.declaredNames⟩ "R"
    rw [← hresult, heq] at hprefix
    exact absurd hprefix (by decide)
  refine ⟨?_, hfree, fun fold hfold => ?_⟩
  · obtain ⟨n, -, hn⟩ := Scope.exists_fresh_eq ⟨d.declaredNames⟩ "R"
    exact ⟨n, hn⟩
  · obtain ⟨name, eager, rfl⟩ := Fold.exists_item_of_mem hfold
    refine ⟨⟨_, _, _, _, rfl⟩, ?_⟩
    rw [Fold.exists_refersTo_iff hundefined, or_iff_right hfree]

/-- Nothing in `Maybe` is called `R`, so its folds bind nothing to the result by accident. -/
theorem maybe_result_captures_nothing :
    (BundleNames.choose maybeDeclaration {}).result = "R" ∧
    ∃ fold ∈ maybeDeclaration.itemsOf {} .fold,
      ¬ ∃ type ∈ Fold.sourceTypes .positional fold, type.RefersTo "R" := by
  have hresult : (BundleNames.choose maybeDeclaration {}).result = "R" := by decide
  have hlen : 0 < (maybeDeclaration.itemsOf {} .fold).length := by
    rw [length_itemsOf_fold rfl]
    decide
  obtain ⟨fold, hfold⟩ := List.exists_mem_of_length_pos hlen
  obtain ⟨-, -, hfolds⟩ := fold_result_captures_iff maybeDeclaration {}
  obtain ⟨-, hiff⟩ := hfolds fold hfold
  rw [hresult] at hiff
  exact ⟨hresult, fold, hfold, fun h => absurd (hiff.mp h) (by decide)⟩

/-- `data Box = Empty | Full R` -/
def boxDeclaration : Declaration where
  name := "Box"
  parameters := []
  constructors := [.ofTypes "Empty" [], .ofTypes "Full" [.var "R"]]
  constructors_ne_nil := List.cons_ne_nil _ _
  nodup_parameters := List.nodup_nil
  nodup_constructors := by decide

/-- `R` is not declared here but named by a member, and the result is called `R` all the same. -/
theorem box_result_captures_member :
    ∃ d, parse "data Box = Empty | Full R" = .ok d ∧
      (BundleNames.choose d {}).result ∈ d.references := by
  have hparse : parse "data Box = Empty | Full R" = .ok boxDeclaration := by cbv
  exact ⟨boxDeclaration, hparse, by decide⟩

end AlgebraicData
