import AlgebraicData.Proofs.Bundle.Fold
import AlgebraicData.Proofs.Bundle.Member

/-!
# Folding what a constructor made

The item of a constructor stores its arguments in an object, under the names of the members, and a
fold reads them back by the same names.  What lies in between is the tag, which may hide a member or
be hidden by one, and the parameters, which are renamed and may hide one another.  Where neither
happens (`Constructor.KeepsArguments`), the object is `DataType.variantValue`: it has the tag of the
constructor and holds every argument, so that a lazy fold passes the arguments on as they were.
-/

namespace AlgebraicData

open Target

variable {ν : Type}

namespace DataType

/-- The object with the tag of a constructor that holds the arguments; the last property of a name
comes first. -/
def variantValue (options : Options) (c : Constructor) (arguments : List (Value ν)) : Value ν :=
  .object ((options.tagName :: c.properties).zip (.str c.name :: arguments)).reverse

/-! ## Making the object -/

/-- Whether a member is written in full or by its name alone, its value is that of the parameter. -/
theorem eval_variantObject {d : Declaration} (hsum : d.isSum = true) {host : Host ν} {env : Env ν}
    {c : Constructor} {arguments : List (Value ν)}
    (h : List.Forall₂ (fun (x : Member × Nat) argument =>
      env.lookup (x.1.binding x.2) = some (.value argument)) c.members.zipIdx arguments)
    (options : Options) :
    eval host env (variantObject d options c) = some (variantValue options c arguments) := by
  have hmembers : List.Forall₂ (fun (x : Member × Nat) argument =>
      eval host env ((if x.1.binding x.2 = x.1.property x.2 then none
        else some (Expr.ident (x.1.binding x.2))).getD (.ident (x.1.property x.2))) =
        some argument) c.members.zipIdx arguments := by
    refine h.imp fun x argument hlookup => ?_
    split
    · rename_i hshort
      rw [Option.getD_none, ← hshort]
      exact eval_ident hlookup
    · exact eval_ident hlookup
  rw [variantObject, if_pos hsum, List.singleton_append]
  refine (eval_object_of_forall₂ (.cons (eval_str c.name)
    (List.forall₂_map_left_iff.mpr hmembers))).trans ?_
  rw [variantValue, List.map_cons, List.map_map]
  rfl

/-- Each parameter stands for its argument. -/
theorem forall₂_lookup_binding {c : Constructor} (hparams : (c.params.map (·.name)).Nodup)
    {arguments : List (Value ν)} (hlen : arguments.length = c.members.length) (env : Env ν) :
    List.Forall₂ (fun (x : Member × Nat) argument =>
      (Env.bind (c.params.map (·.name)) arguments env).lookup (x.1.binding x.2) =
        some (.value argument)) c.members.zipIdx arguments := by
  have hlen' : (c.params.map (·.name)).length = arguments.length := by
    rw [Constructor.map_name_params, List.length_map, List.length_zipIdx, hlen]
  refine List.forall₂_iff_zip.mpr ⟨by rw [List.length_zipIdx, hlen], fun {x argument} hmem => ?_⟩
  have hbinding : (x.1.binding x.2, argument) ∈ (c.params.map (·.name)).zip arguments := by
    rw [Constructor.map_name_params, List.zip_map_left]
    exact List.mem_map.mpr ⟨_, hmem, rfl⟩
  have hlookup := lookup_bind_of_mem ((List.map_fst_zip hlen'.le).symm ▸ hparams) hbinding env
  rwa [List.map_fst_zip hlen'.le, List.map_snd_zip hlen'.ge] at hlookup

end DataType

/-- What the item of a constructor makes of arguments; a constant takes none. -/
noncomputable def Constructor.construct (host : Host ν) (env : Env ν) (c : Constructor)
    (item : Item) (arguments : List (Value ν)) : Option (Value ν) := do
  let maker ← item.eval host env
  if c.isNullary then return maker else call host maker arguments

theorem DataType.construct_item {d : Declaration} (hsum : d.isSum = true) {c : Constructor}
    (hparams : (c.params.map (·.name)).Nodup) {arguments : List (Value ν)}
    (hlen : arguments.length = c.members.length) (host : Host ν) (env : Env ν) (options : Options)
    (name : String) :
    c.construct host env (constructorItem d options c name) arguments =
      some (variantValue options c arguments) := by
  rw [Constructor.construct, constructorItem]
  cases hnullary : c.isNullary with
  | true =>
    have hmembers : c.members = [] := List.isEmpty_iff.mp hnullary
    have hnil : arguments = [] := List.eq_nil_of_length_eq_zero (by rw [hlen, hmembers]; rfl)
    have hobject : eval host env (variantObject d options c) =
        some (variantValue options c arguments) :=
      eval_variantObject hsum (by rw [hmembers, hnil]; exact .nil) options
    simp [Item.eval, hobject]
  | false =>
    simp only [Bool.false_eq_true, if_false, Item.eval, Option.bind_eq_bind, Option.bind_some]
    refine call_closure_of_exec ?_
    rw [exec_ret, eval_variantObject hsum (forall₂_lookup_binding hparams hlen env)]

/-! ## Reading the object -/

/-- The object of a constructor keeps its arguments: no member is stored under the tag, and no
parameter hides another. -/
structure Constructor.KeepsArguments (options : Options) (c : Constructor) : Prop where
  tag_notMem : options.tagName ∉ c.properties
  nodup_params : (c.params.map (·.name)).Nodup

namespace DataType

section Read

variable {options : Options} {c : Constructor} {arguments : List (Value ν)}

theorem read_variantValue (htag : options.tagName ∉ c.properties)
    (hlen : arguments.length = c.members.length) {name : String} {value : Value ν}
    (hmem : (name, value) ∈ (options.tagName :: c.properties).zip (.str c.name :: arguments))
    (host : Host ν) : (variantValue options c arguments).read host name = some value := by
  have hnodup : (options.tagName :: c.properties).Nodup :=
    List.nodup_cons.mpr ⟨htag, c.nodup_properties⟩
  have hlen' : (options.tagName :: c.properties).length ≤
      ((.str c.name :: arguments : List (Value ν))).length := by
    simp [Constructor.properties, hlen]
  refine read_object_of_mem ?_ (List.mem_reverse.mpr hmem) host
  rw [List.map_reverse, List.nodup_reverse, List.map_fst_zip hlen']
  exact hnodup

theorem read_tag_variantValue (htag : options.tagName ∉ c.properties)
    (hlen : arguments.length = c.members.length) (host : Host ν) :
    (variantValue options c arguments).read host options.tagName = some (.str c.name) :=
  read_variantValue htag hlen List.mem_cons_self host

/-- The members of the object are the arguments. -/
theorem memberValues_variantValue (htag : options.tagName ∉ c.properties)
    (hlen : arguments.length = c.members.length) (host : Host ν) :
    c.memberValues host (variantValue options c arguments) = some arguments := by
  have hread : List.Forall₂ (fun (x : Member × Nat) argument =>
      (variantValue options c arguments).read host (x.1.property x.2) = some argument)
      c.members.zipIdx arguments := by
    refine List.forall₂_iff_zip.mpr ⟨by rw [List.length_zipIdx, hlen], fun {x argument} hmem => ?_⟩
    refine read_variantValue htag hlen (List.mem_cons_of_mem _ ?_) host
    rw [Constructor.properties, ← List.zip, List.zip_map_left]
    exact List.mem_map.mpr ⟨_, hmem, rfl⟩
  exact List.mapM_eq_some_of_forall₂ hread

end Read

end DataType

/-- Positional members are in nobody's way, unless the tag is called like one of them. -/
theorem Constructor.keepsArguments_of_positional {options : Options} {c : Constructor}
    (hpositional : ∀ m ∈ c.members, m.name = none)
    (htag : ∀ position < c.members.length, options.tagName ≠ positionalName position) :
    c.KeepsArguments options := by
  refine ⟨fun hmem => ?_, c.nodup_params_iff.mpr (not_paramsClash_of_positional hpositional)⟩
  rw [properties_eq_of_positional hpositional] at hmem
  obtain ⟨position, hposition, heq⟩ := List.mem_map.mp hmem
  exact htag position (List.mem_range.mp hposition) heq.symm

/-! ## Folding the object -/

theorem BundleNames.length_bindings (d : Declaration) (options : Options) :
    (choose d options).bindings.length = d.constructors.length := by
  rw [choose, Scope.length_takeAll, List.length_map]

/-- Each constructor has its item. -/
theorem exists_constructorItem {d : Declaration} {i : Nat} {c : Constructor}
    (hc : d.constructors[i]? = some c) (options : Options) :
    ∃ name, (d.itemsOf options .constructor)[i]? =
      some (DataType.constructorItem d options c name) := by
  have hi : i < d.constructors.length := (List.getElem?_eq_some_iff.mp hc).1
  obtain ⟨name, hname⟩ : ∃ name, (BundleNames.choose d options).bindings[i]? = some name :=
    ⟨_, List.getElem?_eq_getElem (BundleNames.length_bindings d options ▸ hi)⟩
  rw [Declaration.itemsOf_constructor]
  exact ⟨name, List.getElem?_zipWith_eq_some.mpr ⟨c, name, hc, hname, rfl⟩⟩

/-- The folds of a bundle that take functions for nullary constructors: all but the eager one. -/
def Declaration.lazyFolds (d : Declaration) (options : Options) : List Item :=
  (d.itemsOf options .fold).drop (if d.hasNullary then 1 else 0)

theorem length_lazyFolds {d : Declaration} (hsum : d.isSum = true) (options : Options) :
    (d.lazyFolds options).length = 1 := by
  rw [Declaration.lazyFolds, List.length_drop, length_itemsOf_fold hsum]
  cases d.hasNullary <;> rfl

theorem lazyFolds_discriminate {d : Declaration} {options : Options} (hsum : d.isSum = true)
    (hstyle : Fold.StyleApart options) (host : Host ν) (env : Env ν) {item : Item}
    (hitem : item ∈ d.lazyFolds options) :
    ∃ fold, item.eval host env = some fold ∧ Fold.Discriminates host d options false fold := by
  obtain ⟨k, hk⟩ := List.mem_iff_getElem?.mp hitem
  rw [Declaration.lazyFolds, List.getElem?_drop] at hk
  obtain ⟨fold, heval, hfold⟩ := itemsOf_fold_discriminates hsum hstyle host env hk
  refine ⟨fold, heval, ?_⟩
  have hlazy : (d.hasNullary && (if d.hasNullary then 1 else 0) + k == 0) = false := by
    cases d.hasNullary <;> simp
  rwa [hlazy] at hfold

/-- In the bundle of a sum, the one lazy fold undoes every constructor that keeps its arguments: the
value that its item makes is folded into what its handler makes of the same arguments, in the same
order.  Constructors with positional members keep them unless the tag is called like one. -/
theorem lazy_fold_of_construct (host : Host ν) {d : Declaration} {options : Options}
    (hsum : d.isSum = true) (hstyle : Fold.StyleApart options) (env : Env ν) :
    (d.lazyFolds options).length = 1 ∧
    (∀ c ∈ d.constructors, (∀ m ∈ c.members, m.name = none) →
      (∀ position < c.members.length, options.tagName ≠ positionalName position) →
      c.KeepsArguments options) ∧
    ∀ (i : Nat) (c : Constructor), d.constructors[i]? = some c → c.KeepsArguments options →
      ∃ item, (d.itemsOf options .constructor)[i]? = some item ∧
        ∀ arguments : List (Value ν), arguments.length = c.members.length →
          ∃ value, c.construct host env item arguments = some value ∧
            ∀ foldItem ∈ d.lazyFolds options, ∃ fold, foldItem.eval host env = some fold ∧
              ∀ handlers args, Fold.Passes host d options handlers args →
                ∃ handler, handlers[i]? = some handler ∧
                  call host fold (value :: args) = call host handler arguments := by
  refine ⟨length_lazyFolds hsum options,
    fun c _ => Constructor.keepsArguments_of_positional, fun i c hc hkeeps => ?_⟩
  obtain ⟨name, hitem⟩ := exists_constructorItem hc options
  refine ⟨_, hitem, fun arguments hlen => ?_⟩
  refine ⟨DataType.variantValue options c arguments,
    DataType.construct_item hsum hkeeps.nodup_params hlen host env options name, ?_⟩
  intro foldItem hfoldItem
  obtain ⟨fold, heval, hfold⟩ := lazyFolds_discriminate hsum hstyle host env hfoldItem
  refine ⟨fold, heval, fun handlers args hpass => ?_⟩
  have htag := DataType.read_tag_variantValue hkeeps.tag_notMem hlen host
  obtain ⟨handler, values, hhandler, hvalues, hcall⟩ := hfold hc htag hpass
  rw [DataType.memberValues_variantValue hkeeps.tag_notMem hlen] at hvalues
  obtain rfl := Option.some.inj hvalues
  exact ⟨handler, hhandler, hcall⟩

/-- `data Keyword = Default | New { class :: string, can't :: number }` -/
def keywordDeclaration : Declaration where
  name := "Keyword"
  parameters := []
  constructors := [.ofTypes "Default" [],
    .ofFields "New" [("class", .var "string"), ("can't", .var "number")] (by decide)]
  constructors_ne_nil := List.cons_ne_nil _ _
  nodup_parameters := List.nodup_nil
  nodup_constructors := by decide

/-- The parameters of `New` are `class_` and `value1`, and its handler still gets both arguments. -/
theorem keyword_fold_new :
    keywordDeclaration.isSum = true ∧ Fold.StyleApart {} ∧
    ∃ (c : Constructor) (item foldItem : Item) (value fold : Value Empty),
      keywordDeclaration.constructors[1]? = some c ∧ c.KeepsArguments {} ∧
      (keywordDeclaration.itemsOf {} .constructor)[1]? = some item ∧
      c.construct ⟨Empty.elim, Empty.elim⟩ [] item [.str "a", .str "b"] = some value ∧
      foldItem ∈ keywordDeclaration.lazyFolds {} ∧
      foldItem.eval ⟨Empty.elim, Empty.elim⟩ [] = some fold ∧
      call ⟨Empty.elim, Empty.elim⟩ fold [value, .str "none",
        .closure ["p", "q"] [.ret (.ident "q")] []] = some (.str "b") := by
  have hsum : keywordDeclaration.isSum = true := rfl
  have hstyle : Fold.StyleApart {} := nofun
  obtain ⟨hlen, -, hconstructors⟩ :=
    lazy_fold_of_construct (⟨Empty.elim, Empty.elim⟩ : Host Empty) hsum hstyle []
  obtain ⟨foldItem, hfoldItem⟩ := List.length_eq_one_iff.mp hlen
  have hmem : foldItem ∈ keywordDeclaration.lazyFolds {} := by simp [hfoldItem]
  obtain ⟨c, hc⟩ : ∃ c, keywordDeclaration.constructors[1]? = some c := ⟨_, rfl⟩
  have hkeeps : c.KeepsArguments {} := by
    obtain rfl := Option.some.inj hc
    exact ⟨by decide, by decide⟩
  obtain ⟨item, hitem, harguments⟩ := hconstructors 1 c hc hkeeps
  have hlength : 2 = c.members.length := by
    obtain rfl := Option.some.inj hc
    rfl
  obtain ⟨value, hvalue, hfolds⟩ := harguments [.str "a", .str "b"] hlength
  obtain ⟨fold, heval, hfold⟩ := hfolds foldItem hmem
  refine ⟨hsum, hstyle, c, item, foldItem, value, fold, hc, hkeeps, hitem, hvalue, hmem, heval, ?_⟩
  obtain ⟨handler, hhandler, hcall⟩ := hfold
    [.str "none", .closure ["p", "q"] [.ret (.ident "q")] []] _ ⟨rfl, rfl⟩
  obtain rfl := Option.some.inj hhandler
  refine hcall.trans (call_closure_of_exec ?_)
  rw [exec_ret]
  exact congrArg _ (eval_ident List.lookup_cons_self)

end AlgebraicData
