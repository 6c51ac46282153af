import AlgebraicData.Proofs.Bundle.Basic
import AlgebraicData.Proofs.Name.Scope
import AlgebraicData.Proofs.Target.Evaluation

/-!
# What folds and accessors compute

A fold is applied to a value whose tag names a constructor, and to one handler for each constructor.
It hands the members of the value to the handler of that constructor.  Two facts about names carry
the proof: constructors have different names, so the switch goes to one case only, and handlers are
called neither as one another nor as the value, so each name stands for what was passed.
-/

namespace AlgebraicData

open Target

variable {ν : Type}

/-! ## The names of handlers -/

namespace BundleNames

theorem length_handlers (d : Declaration) (options : Options) :
    (choose d options).handlers.length = d.constructors.length := by
  rw [choose, Scope.length_takeAll, List.length_map]

theorem matcheeName_mem_foldScope (options : Options) :
    options.matcheeName ∈ (foldScope options).taken := by
  rw [foldScope]
  cases options.handlerStyle with
  | positional => simp
  | record handlersName => simp [Scope.taken_take]

/-- The value and the handlers of a fold have different names. -/
theorem nodup_handlers (d : Declaration) (options : Options) :
    (options.matcheeName :: (choose d options).handlers).Nodup := by
  obtain ⟨hnodup, hfree⟩ :=
    (foldScope options).nodup_takeAll (d.constructors.map wantedHandler)
  refine List.nodup_cons.mpr ⟨fun hmem => ?_, hnodup⟩
  exact hfree _ hmem (matcheeName_mem_foldScope options)

end BundleNames

/-! ## Passing handlers -/

/-- The values of a constructor's members in an object, in order. -/
def Constructor.memberValues (host : Host ν) (c : Constructor) (object : Value ν) :
    Option (List (Value ν)) :=
  c.members.zipIdx.mapM fun (m, position) => object.read host (m.property position)

namespace Fold

/-- The arguments pass the handlers in the order of the constructors: one by one, or in one object
that has a property for each. -/
def Passes (host : Host ν) (d : Declaration) (options : Options) (handlers args : List (Value ν)) :
    Prop :=
  handlers.length = d.constructors.length ∧
    match options.handlerStyle with
    | .positional => args = handlers
    | .record _ => ∃ object, args = [object] ∧
      List.Forall₂ (fun name handler => object.read host name = some handler)
        (BundleNames.choose d options).handlers handlers

/-- The names of a fold's parameters after the value. -/
def handlerParamNames (d : Declaration) (options : Options) : List String :=
  match options.handlerStyle with
  | .positional => (BundleNames.choose d options).handlers
  | .record handlersName => [handlersName]

theorem map_name_handlerParams (d : Declaration) (options : Options) (eager : Bool) :
    (handlerParams d options (.choose d options) eager).map (·.name) =
      handlerParamNames d options := by
  have hlen := BundleNames.length_handlers d options
  rw [handlerParamNames, handlerParams]
  cases options.handlerStyle with
  | positional =>
    rw [← List.map_uncurry_zip_eq_zipWith, List.map_map]
    exact List.map_snd_zip hlen.le
  | record handlersName => rfl

/-- The style of the options gives the object of handlers another name than the value. -/
def StyleApart (options : Options) : Prop :=
  ∀ handlersName, options.handlerStyle = .record handlersName →
    handlersName ≠ options.matcheeName

section Scope

variable {host : Host ν} {d : Declaration} {options : Options} {handlers args : List (Value ν)}

theorem lookup_matchee (hstyle : StyleApart options) (d : Declaration) (value : Value ν)
    (args : List (Value ν)) (env : Env ν) :
    (Env.bind (options.matcheeName :: handlerParamNames d options) (value :: args) env).lookup
      options.matcheeName = some (.value value) := by
  have hnotMem : options.matcheeName ∉ handlerParamNames d options := by
    rw [handlerParamNames]
    cases hs : options.handlerStyle with
    | positional => exact (List.nodup_cons.mp (BundleNames.nodup_handlers d options)).1
    | record handlersName => exact fun hmem => hstyle _ hs (List.mem_singleton.mp hmem).symm
  rw [Env.bind, lookup_bind_of_notMem hnotMem, List.lookup_cons_self]

/-- The expression for a handler has the value that was passed for it. -/
theorem eval_handlerExpr (hpass : Passes host d options handlers args) {name : String}
    {handler : Value ν}
    (hmem : (name, handler) ∈ (BundleNames.choose d options).handlers.zip handlers)
    (value : Value ν) (env : Env ν) :
    eval host (Env.bind (options.matcheeName :: handlerParamNames d options) (value :: args) env)
      (handlerExpr options name) = some handler := by
  obtain ⟨hlen, hargs⟩ := hpass
  rw [handlerParamNames, handlerExpr]
  cases hs : options.handlerStyle with
  | positional =>
    rw [hs] at hargs
    subst hargs
    have hlen' := (BundleNames.length_handlers d options).trans hlen.symm
    have hnodup := (List.nodup_cons.mp (BundleNames.nodup_handlers d options)).2
    rw [← List.map_fst_zip hlen'.le] at hnodup
    refine eval_ident ?_
    have hlookup := lookup_bind_of_mem hnodup hmem
    rw [List.map_fst_zip hlen'.le, List.map_snd_zip hlen'.ge] at hlookup
    exact hlookup _
  | record handlersName =>
    rw [hs] at hargs
    obtain ⟨object, rfl, hread⟩ := hargs
    have hobject : (Env.bind [options.matcheeName, handlersName] [value, object] env).lookup
        handlersName = some (.value object) := List.lookup_cons_self
    rw [eval_member_ident hobject]
    exact (List.forall₂_iff_zip.mp hread).2 hmem

/-- The members of the value, where the value has its name. -/
theorem mapM_eval_members {env : Env ν} {value : Value ν}
    (h : env.lookup options.matcheeName = some (.value value)) (c : Constructor) :
    (c.members.zipIdx.map fun (m, position) =>
      Expr.member (.ident options.matcheeName) (m.property position)).mapM (eval host env) =
      c.memberValues host value := by
  rw [List.mapM_map, Constructor.memberValues]
  congr 1
  funext ⟨m, position⟩
  exact eval_member_ident h (m.property position)

theorem eval_result {env : Env ν} {value handler : Value ν} {values : List (Value ν)}
    {c : Constructor} {name : String}
    (hmatchee : env.lookup options.matcheeName = some (.value value))
    (hhandler : eval host env (handlerExpr options name) = some handler)
    (hvalues : c.memberValues host value = some values) (eager : Bool) :
    eval host env (result options eager c name) =
      if eager && c.isNullary then some handler else call host handler values := by
  rw [result, isPlain]
  split
  · exact hhandler
  · rw [eval_call, hhandler, mapM_eval_members hmatchee, hvalues]
    rfl

end Scope

/-! ## Folds -/

/-- The fold goes by the tag: it returns what the handler of the constructor makes of the members,
or the handler itself where the fold is eager and there are no members. -/
def Discriminates (host : Host ν) (d : Declaration) (options : Options) (eager : Bool)
    (fold : Value ν) : Prop :=
  ∀ ⦃i : Nat⦄ ⦃c : Constructor⦄ ⦃value : Value ν⦄ ⦃handlers args : List (Value ν)⦄,
    d.constructors[i]? = some c →
    value.read host options.tagName = some (.str c.name) → Passes host d options handlers args →
    ∃ handler values, handlers[i]? = some handler ∧ c.memberValues host value = some values ∧
      call host fold (value :: args) =
        if eager && c.isNullary then some handler else call host handler values

theorem exists_memberValues {host : Host ν} {value tag : Value ν} {property : String}
    (h : value.read host property = some tag) (c : Constructor) :
    ∃ values, c.memberValues host value = some values := by
  have hobject := Value.isObject_of_read h
  rw [Constructor.memberValues]
  induction c.members.zipIdx with
  | nil => exact ⟨[], rfl⟩
  | cons m members ih =>
    obtain ⟨values, hvalues⟩ := ih
    obtain ⟨first, hfirst⟩ := hobject.exists_read host (m.1.property m.2)
    exact ⟨first :: values, by simp [List.mapM_cons, hfirst, hvalues]⟩

theorem item_discriminates {options : Options} (hstyle : StyleApart options) (host : Host ν)
    (d : Declaration) (name : String) (eager : Bool) (env : Env ν) :
    ∃ fold, (item d options (.choose d options) name eager).eval host env = some fold ∧
      Discriminates host d options eager fold := by
  refine ⟨_, rfl, ?_⟩
  intro i c value handlers args hc htag hpass
  have hlen := BundleNames.length_handlers d options
  have hi : i < d.constructors.length := (List.getElem?_eq_some_iff.mp hc).1
  -- the handler of the constructor, by name and by value
  obtain ⟨handlerName, hname⟩ : ∃ n, (BundleNames.choose d options).handlers[i]? = some n :=
    ⟨_, List.getElem?_eq_getElem (hlen ▸ hi)⟩
  obtain ⟨handler, hhandler⟩ : ∃ h, handlers[i]? = some h :=
    ⟨_, List.getElem?_eq_getElem (hpass.1 ▸ hi)⟩
  obtain ⟨values, hvalues⟩ := exists_memberValues htag c
  refine ⟨handler, values, hhandler, hvalues, ?_⟩
  rw [List.map_cons, map_name_handlerParams]
  refine call_closure_of_exec ?_
  have hmatchee := lookup_matchee hstyle d value args env
  have hhandlerExpr := eval_handlerExpr hpass
    (List.mem_of_getElem? (List.getElem?_zip_eq_some.mpr ⟨hname, hhandler⟩)) value env
  rw [← eval_result hmatchee hhandlerExpr hvalues eager]
  -- the cases of the switch, each with the name of its constructor
  let arms := (d.constructors.zip (BundleNames.choose d options).handlers).map
    fun (c, handlerName) => (c.name, result options eager c handlerName)
  have hlabels : arms.map (·.1) = d.constructors.map (·.name) := by
    have hfst := congrArg (List.map (·.name)) (List.map_fst_zip hlen.ge)
    rwa [List.map_map] at hfst ⊢
  have hmem : (c.name, result options eager c handlerName) ∈ arms :=
    List.mem_map.mpr
      ⟨(c, handlerName), List.mem_of_getElem? (List.getElem?_zip_eq_some.mpr ⟨hc, hname⟩), rfl⟩
  have hscrutinee : eval host _ (.member (.ident options.matcheeName) options.tagName) = _ :=
    (eval_member_ident hmatchee options.tagName).trans htag
  have hswitch := exec_switch_of_mem (hlabels ▸ d.nodup_constructors) hmem hscrutinee
  rw [List.map_map] at hswitch
  rw [← List.map_uncurry_zip_eq_zipWith]
  exact hswitch

/-- The arguments that pass the handlers; an object of handlers holds nothing else. -/
def handlerArgs (d : Declaration) (options : Options) (handlers : List (Value ν)) :
    List (Value ν) :=
  match options.handlerStyle with
  | .positional => handlers
  | .record _ => [.object ((BundleNames.choose d options).handlers.zip handlers)]

theorem passes_handlerArgs (host : Host ν) {d : Declaration} {options : Options}
    {handlers : List (Value ν)} (hlen : handlers.length = d.constructors.length) :
    Passes host d options handlers (handlerArgs d options handlers) := by
  refine ⟨hlen, ?_⟩
  rw [handlerArgs]
  cases options.handlerStyle with
  | positional => rfl
  | record handlersName =>
    have hlen' := (BundleNames.length_handlers d options).trans hlen.symm
    have hnodup := (List.nodup_cons.mp (BundleNames.nodup_handlers d options)).2
    rw [← List.map_fst_zip hlen'.le] at hnodup
    refine ⟨_, rfl, List.forall₂_iff_zip.mpr ⟨hlen', fun hmem => ?_⟩⟩
    exact read_object_of_mem hnodup hmem host

/-- The handlers of a lazy fold: where an eager one takes a result, a function that returns it. -/
def Delays (host : Host ν) (d : Declaration) (handlers lazyHandlers : List (Value ν)) : Prop :=
  ∀ ⦃i : Nat⦄ ⦃c : Constructor⦄ ⦃handler lazyHandler : Value ν⦄, d.constructors[i]? = some c →
    handlers[i]? = some handler → lazyHandlers[i]? = some lazyHandler →
    if c.isNullary then call host lazyHandler [] = some handler else lazyHandler = handler

/-- The folds have the same result on every value, once the handlers of the lazy one are delayed. -/
def Agree (host : Host ν) (d : Declaration) (options : Options) (fold lazyFold : Value ν) : Prop :=
  ∀ ⦃i : Nat⦄ ⦃c : Constructor⦄ ⦃value : Value ν⦄
    ⦃handlers args lazyHandlers lazyArgs : List (Value ν)⦄, d.constructors[i]? = some c →
    value.read host options.tagName = some (.str c.name) → Passes host d options handlers args →
    Passes host d options lazyHandlers lazyArgs → Delays host d handlers lazyHandlers →
    call host fold (value :: args) = call host lazyFold (value :: lazyArgs)

theorem Discriminates.agree {host : Host ν} {d : Declaration} {options : Options}
    {fold lazyFold : Value ν} (h : Discriminates host d options true fold)
    (hlazy : Discriminates host d options false lazyFold) : Agree host d options fold lazyFold := by
  intro i c value handlers args lazyHandlers lazyArgs hc htag hpass hpass' hdelays
  obtain ⟨handler, values, hhandler, hvalues, hcall⟩ := h hc htag hpass
  obtain ⟨lazyHandler, values', hlazyHandler, hvalues', hcall'⟩ := hlazy hc htag hpass'
  obtain rfl := Option.some.inj (hvalues.symm.trans hvalues')
  have hdelay := hdelays hc hhandler hlazyHandler
  rw [hcall, hcall']
  by_cases hnullary : c.isNullary = true
  · have hnil : values = [] := by
      rw [Constructor.memberValues, List.isEmpty_iff.mp hnullary] at hvalues
      exact (Option.some.inj hvalues).symm
    rw [if_pos hnullary] at hdelay
    simp [hnullary, hnil, hdelay]
  · rw [if_neg hnullary] at hdelay
    simp [hnullary, hdelay]

end Fold

/-! ## Accessors -/

namespace Accessor

/-- The prism that an accessor gives; with type parameters, the accessor is a function. -/
noncomputable def evalPrism (host : Host ν) (env : Env ν) (d : Declaration) (item : Item) :
    Option (Value ν) := do
  let accessor ← item.eval host env
  if d.isPolymorphic then call host accessor [] else return accessor

/-- The predicate holds of a value exactly if its tag names the given constructor. -/
def Recognizes (host : Host ν) (d : Declaration) (options : Options) (j : Nat)
    (predicate : Value ν) : Prop :=
  ∀ ⦃i : Nat⦄ ⦃c : Constructor⦄ ⦃value : Value ν⦄, d.constructors[i]? = some c →
    value.read host options.tagName = some (.str c.name) →
    call host predicate [value] = some (.bool (i = j))

/-- The predicate of an accessor, where the names in scope are as given. -/
def predicate (options : Options) (c : Constructor) (env : Env ν) : Value ν :=
  .closure [options.matcheeName] [.ret (.strictEq
    (.member (.ident options.matcheeName) options.tagName) (.str c.name))] env

theorem evalPrism_item {host : Host ν} {env : Env ν} {library fromPredicate : Value ν}
    (hlibrary : env.lookup "Prism" = some (.value library))
    (hread : library.read host "fromPredicate" = some fromPredicate) (d : Declaration)
    (options : Options) (c : Constructor) (name : String) :
    evalPrism host env d (item d options c name) =
      call host fromPredicate [predicate options c env] := by
  have hprism : eval host env (prism options c) =
      call host fromPredicate [predicate options c env] := by
    rw [prism, eval_call, eval_member_ident hlibrary, hread]
    simp [predicate]
  rw [evalPrism, item]
  by_cases hpoly : d.isPolymorphic = true
  · simp only [hpoly, if_true, Item.eval, Option.bind_eq_bind, Option.bind_some]
    refine call_closure_of_exec ?_
    rw [exec_ret, ← hprism]
    rfl
  · simp [hpoly, Item.eval, hprism]

theorem recognizes_predicate (host : Host ν) {d : Declaration} {j : Nat} {c : Constructor}
    (hc : d.constructors[j]? = some c) (options : Options) (env : Env ν) :
    Recognizes host d options j (predicate options c env) := by
  intro i c' value hc' htag
  refine call_closure_of_exec ?_
  have hmatchee : (Env.bind [options.matcheeName] [value] env).lookup options.matcheeName =
      some (.value value) := List.lookup_cons_self
  have hnames : (c'.name == c.name) = decide (i = j) := by
    rw [beq_eq_decide, decide_eq_decide]
    refine ⟨Declaration.index_eq_of_name_eq hc' hc, ?_⟩
    rintro rfl
    rw [Option.some.inj (hc'.symm.trans hc)]
  rw [exec_ret, eval_strictEq, eval_member_ident hmatchee, htag, eval_str]
  simp [Value.strictEq, hnames]

end Accessor

/-! ## The bundle of a sum -/

theorem BundleNames.length_accessors {d : Declaration} {options : Options} (hsum : d.isSum = true)
    (hemit : options.emitAccessors = true) :
    (choose d options).accessors.length = d.constructors.length := by
  have haccessors : hasAccessors d options = true := by rw [hasAccessors, hsum, hemit]; rfl
  simp only [choose, haccessors, if_true, Scope.length_takeAll, List.length_map]

theorem length_itemsOf_fold {d : Declaration} (hsum : d.isSum = true) (options : Options) :
    (d.itemsOf options .fold).length = if d.hasNullary then 2 else 1 := by
  rw [Declaration.itemsOf_fold hsum, Fold.items, List.length_map, List.length_zipIdx,
    BundleNames.choose, BundleNames.foldNames, hsum]
  cases d.hasNullary <;> rfl

theorem itemsOf_fold_discriminates {d : Declaration} {options : Options} (hsum : d.isSum = true)
    (hstyle : Fold.StyleApart options) (host : Host ν) (env : Env ν) {k : Nat} {item : Item}
    (hitem : (d.itemsOf options .fold)[k]? = some item) :
    ∃ fold, item.eval host env = some fold ∧
      Fold.Discriminates host d options (d.hasNullary && k == 0) fold := by
  rw [Declaration.itemsOf_fold hsum, Fold.items, List.getElem?_map, List.getElem?_zipIdx] at hitem
  obtain ⟨⟨name, index⟩, hname, rfl⟩ := Option.map_eq_some_iff.mp hitem
  obtain ⟨_, -, heq⟩ := Option.map_eq_some_iff.mp hname
  obtain ⟨rfl, rfl⟩ := Prod.mk.inj heq
  rw [Nat.zero_add]
  exact Fold.item_discriminates hstyle host d _ _ env

/-- In the bundle of a sum, every fold goes by the tag of the value: it returns what the handler of
the constructor makes of the members, except that the eager fold returns the handler of a nullary
constructor itself.  So the eager and the lazy fold agree, and the predicate of each accessor holds
of the values of its own constructor alone. -/
theorem folds_and_accessors_discriminate (host : Host ν) {d : Declaration} {options : Options}
    (hsum : d.isSum = true) (hstyle : Fold.StyleApart options) (env : Env ν) :
    (d.itemsOf options .fold).length = (if d.hasNullary then 2 else 1) ∧
    (∀ k item, (d.itemsOf options .fold)[k]? = some item →
      ∃ fold, item.eval host env = some fold ∧
        Fold.Discriminates host d options (d.hasNullary && k == 0) fold) ∧
    (∀ handlers : List (Value ν), handlers.length = d.constructors.length →
      Fold.Passes host d options handlers (Fold.handlerArgs d options handlers)) ∧
    (∀ item lazyItem, (d.itemsOf options .fold)[0]? = some item →
      (d.itemsOf options .fold)[1]? = some lazyItem →
      ∃ fold lazyFold, item.eval host env = some fold ∧ lazyItem.eval host env = some lazyFold ∧
        Fold.Agree host d options fold lazyFold) ∧
    (options.emitAccessors = true →
      (d.itemsOf options .accessor).length = d.constructors.length ∧
      ∀ j item library fromPredicate, (d.itemsOf options .accessor)[j]? = some item →
        env.lookup "Prism" = some (.value library) →
        library.read host "fromPredicate" = some fromPredicate →
        ∃ predicate, Accessor.evalPrism host env d item = call host fromPredicate [predicate] ∧
          Accessor.Recognizes host d options j predicate) := by
  refine ⟨length_itemsOf_fold hsum options,
    fun k item hitem => itemsOf_fold_discriminates hsum hstyle host env hitem,
    fun handlers hlen => Fold.passes_handlerArgs host hlen, ?_, ?_⟩
  · intro item lazyItem hitem hlazyItem
    obtain ⟨fold, heval, hfold⟩ := itemsOf_fold_discriminates hsum hstyle host env hitem
    obtain ⟨lazyFold, hlazyEval, hlazyFold⟩ :=
      itemsOf_fold_discriminates hsum hstyle host env hlazyItem
    -- a second fold is there only beside an eager one
    have hnullary : d.hasNullary = true := by
      have hlt := (List.getElem?_eq_some_iff.mp hlazyItem).1
      rw [length_itemsOf_fold hsum] at hlt
      by_contra hno
      simp [hno] at hlt
    rw [hnullary] at hfold hlazyFold
    exact ⟨fold, lazyFold, heval, hlazyEval, Fold.Discriminates.agree hfold hlazyFold⟩
  · intro hemit
    have hlen := BundleNames.length_accessors hsum hemit
    rw [Declaration.itemsOf_accessor hsum hemit, Accessor.items]
    refine ⟨by rw [List.length_zipWith, hlen, Nat.min_self], ?_⟩
    intro j item library fromPredicate hitem hlibrary hread
    obtain ⟨c, name, hc, -, rfl⟩ := List.getElem?_zipWith_eq_some.mp hitem
    exact ⟨_, Accessor.evalPrism_item hlibrary hread d options c name,
      Accessor.recognizes_predicate host hc options env⟩

/-- `data Maybe A = Nothing | Just A` -/
def maybeDeclaration : Declaration where
  name := "Maybe"
  parameters := [⟨"A", none⟩]
  constructors := [.ofTypes "Nothing" [], .ofTypes "Just" [.var "A"]]
  constructors_ne_nil := List.cons_ne_nil _ _
  nodup_parameters := List.nodup_singleton "A"
  nodup_constructors := by decide

/-- The eager fold hands the one member of `Just` to the second handler of an object. -/
theorem maybe_fold_just :
    maybeDeclaration.isSum = true ∧
    Fold.StyleApart ⟨"type", "fold", "fa", .record "handlers", true, true⟩ ∧
    ∃ item fold, (maybeDeclaration.itemsOf ⟨"type", "fold", "fa", .record "handlers", true, true⟩
        .fold)[0]? = some item ∧ item.eval (⟨Empty.elim, Empty.elim⟩ : Host Empty) [] = some fold ∧
      call ⟨Empty.elim, Empty.elim⟩ fold [.object [("type", .str "Just"), ("value0", .str "x")],
        .object [("onNothing", .str "none"), ("onJust", .closure ["a"] [.ret (.ident "a")] [])]] =
        some (.str "x") := by
  have hstyle : Fold.StyleApart ⟨"type", "fold", "fa", .record "handlers", true, true⟩ := by
    rintro handlersName ⟨⟩
    decide
  have hsum : maybeDeclaration.isSum = true := rfl
  obtain ⟨hlen, hfolds, hpasses, -, -⟩ :=
    folds_and_accessors_discriminate (⟨Empty.elim, Empty.elim⟩ : Host Empty) hsum hstyle []
  obtain ⟨item, hitem⟩ : ∃ item, (maybeDeclaration.itemsOf _ .fold)[0]? = some item :=
    ⟨_, List.getElem?_eq_getElem (i := 0) (by rw [hlen]; decide)⟩
  obtain ⟨fold, heval, hfold⟩ := hfolds 0 item hitem
  refine ⟨hsum, hstyle, item, fold, hitem, heval, ?_⟩
  have hjust : maybeDeclaration.constructors[1]? = some ⟨"Just", [.positional (.var "A")], _, _⟩ :=
    rfl
  have hnames : (BundleNames.choose maybeDeclaration
      ⟨"type", "fold", "fa", .record "handlers", true, true⟩).handlers =
      ["onNothing", "onJust"] := by
    decide
  have hpass := hpasses [.str "none", .closure ["a"] [.ret (.ident "a")] []] rfl
  rw [Fold.handlerArgs, hnames] at hpass
  obtain ⟨handler, values, hhandler, hvalues, hcall⟩ :=
    @hfold 1 _ (.object [("type", .str "Just"), ("value0", .str "x")]) _ _ hjust rfl hpass
  obtain rfl := Option.some.inj hhandler
  obtain rfl := Option.some.inj hvalues
  refine hcall.trans ?_
  refine call_closure_of_exec ?_
  rw [exec_ret]
  exact congrArg _ (eval_ident List.lookup_cons_self)

end AlgebraicData
