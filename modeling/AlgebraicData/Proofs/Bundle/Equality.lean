import AlgebraicData.Proofs.Bundle.Basic
import AlgebraicData.Proofs.Name.Scope
import AlgebraicData.Proofs.Target.Evaluation

/-!
# What the equality computes

`getEq` takes a comparator for each member that is not recursive and returns an equality.  The
equality is compared with `SameStructure`, a relation that does not mention the generated code: the
same constructor made both values, and their members are accepted by the comparators passed for
them, or again have the same structure where they are recursive.

The proof has three layers:

* names — each comparator stands for what was passed for its member (`lookup_comparator`);
* shapes — whichever of its four shapes the comparison has, values of one constructor are compared
  by their members and values of two constructors are not equal (`exists_comparison`);
* recursion — the equality finds itself under its own name, so that an induction over finite values
  goes through (`IsEquality.call_eq_true_iff_sameStructure`).
-/

namespace AlgebraicData.Equality

open Target

variable {ν : Type}

/-! ## Structural equality -/

/-- Of a sum, the value has the constructor's name as its tag. -/
def HasTag (host : Host ν) (d : Declaration) (options : Options) (c : Constructor)
    (value : Value ν) : Prop :=
  d.isSum = true → value.read host options.tagName = some (.str c.name)

/-- The finite values of the declared type. -/
inductive IsValue (host : Host ν) (d : Declaration) (options : Options) : Value ν → Prop where
  | intro {value : Value ν} {c : Constructor} : c ∈ d.constructors → value.IsObject →
      HasTag host d options c value →
      (∀ {m position member}, (m, position) ∈ c.members.zipIdx → d.isRecursiveMember m = true →
        value.read host (m.property position) = some member → IsValue host d options member) →
      IsValue host d options value

/-- What a comparator says about two values. -/
noncomputable def compare (host : Host ν) (comparator a b : Value ν) : Option (Value ν) := do
  let equals ← comparator.read host "equals"
  call host equals [a, b]

/-- The same constructor made both values and their members are equal in turn, where `comparator`
gives the comparator for each member that is not recursive. -/
inductive SameStructure (host : Host ν) (d : Declaration) (options : Options)
    (comparator : Constructor → Nat → Value ν) : Value ν → Value ν → Prop where
  | intro {x y : Value ν} {c : Constructor} : c ∈ d.constructors →
      HasTag host d options c x → HasTag host d options c y →
      (∀ {m position a b}, (m, position) ∈ c.members.zipIdx → d.isRecursiveMember m = false →
        x.read host (m.property position) = some a → y.read host (m.property position) = some b →
        compare host (comparator c position) a b = some (.bool true)) →
      (∀ {m position a b}, (m, position) ∈ c.members.zipIdx → d.isRecursiveMember m = true →
        x.read host (m.property position) = some a → y.read host (m.property position) = some b →
        SameStructure host d options comparator a b) →
      SameStructure host d options comparator x y

/-- The comparators as `getEq` takes them: those of each constructor in turn, for each of its
members that is not recursive. -/
def arguments (d : Declaration) (comparator : Constructor → Nat → Value ν) : List (Value ν) :=
  d.constructors.flatMap fun c => c.members.zipIdx.filterMap fun (m, position) =>
    if d.isRecursiveMember m then none else some (comparator c position)

/-! ## The names of comparators -/

/-- A member has a comparator with a name of its own unless it is recursive. -/
def Fits (d : Declaration) (member : Member × Nat) (name? : Option String) : Prop :=
  if d.isRecursiveMember member.1 then name? = none
  else ∃ name, name? = some name ∧ "eq".toList <+: name.toList

theorem Fits.eq_none {d : Declaration} {m : Member} {position : Nat} {name? : Option String}
    (h : Fits d (m, position) name?) (hrec : d.isRecursiveMember m = true) : name? = none := by
  rwa [Fits, if_pos hrec] at h

theorem Fits.exists_name {d : Declaration} {m : Member} {position : Nat} {name? : Option String}
    (h : Fits d (m, position) name?) (hrec : d.isRecursiveMember m = false) :
    ∃ name, name? = some name ∧ "eq".toList <+: name.toList := by
  rwa [Fits, if_neg (by simp [hrec])] at h

theorem prefix_wantedComparator (d : Declaration) (c : Constructor) (m : Member) (position : Nat) :
    "eq".toList <+: (wantedComparator d c m position).toList := by
  rw [wantedComparator, String.toList_append, String.toList_append, List.append_assoc]
  exact List.prefix_append _ _

theorem forall₂_comparators (d : Declaration) :
    List.Forall₂ (fun c names => List.Forall₂ (Fits d) c.members.zipIdx names) d.constructors
      (comparators d) := by
  have hrows := Scope.forall₂_takeRows .empty (d.constructors.map (wantedComparators d))
  rw [List.forall₂_map_left_iff] at hrows
  refine hrows.imp fun c names hrow => ?_
  rw [wantedComparators, List.forall₂_map_left_iff] at hrow
  refine hrow.imp fun ⟨m, position⟩ name? hname => ?_
  by_cases hrec : d.isRecursiveMember m = true
  · simp only [hrec, if_true] at hname
    simp only [Fits, hrec, if_true]
    cases hname
    rfl
  · simp only [hrec] at hname
    simp only [Fits, hrec]
    cases hname with
    | some hname => exact ⟨_, rfl, (prefix_wantedComparator d c m position).trans hname⟩

/-- The rows of comparators belong to constructors with different names. -/
theorem nodup_names_zip_comparators (d : Declaration) :
    ((d.constructors.zip (comparators d)).map (·.1.name)).Nodup := by
  have hlen := (forall₂_comparators d).length_eq
  have hfst := congrArg (List.map (·.name)) (List.map_fst_zip hlen.le)
  rw [List.map_map] at hfst
  exact hfst ▸ d.nodup_constructors

/-- A product has one row of comparators. -/
theorem eq_singleton_of_product {d : Declaration} (hsum : d.isSum = false) {c : Constructor}
    {names : List (Option String)} (hrow : (c, names) ∈ d.constructors.zip (comparators d)) :
    d.constructors = [c] ∧ comparators d = [names] := by
  have hlen := (forall₂_comparators d).length_eq
  obtain ⟨only, honly⟩ := Declaration.exists_constructors_eq hsum
  rw [honly, List.length_singleton] at hlen
  obtain ⟨row, hrows⟩ := List.length_eq_one_iff.mp hlen.symm
  rw [honly, hrows, List.zip_cons_cons, List.zip_nil_left, List.mem_singleton] at hrow
  obtain ⟨rfl, rfl⟩ := Prod.mk.inj hrow
  exact ⟨honly, hrows⟩

/-- The names of the comparators, in the order of the parameters. -/
def comparatorNames (d : Declaration) : List String :=
  (comparators d).flatMap (·.reduceOption)

theorem comparatorNames_eq (d : Declaration) :
    comparatorNames d = (comparators d).flatten.reduceOption := by
  rw [comparatorNames, List.reduceOption, List.filterMap_flatten, List.flatMap_def]

theorem nodup_comparatorNames (d : Declaration) : (comparatorNames d).Nodup := by
  rw [comparatorNames_eq]
  exact Scope.nodup_takeRows .empty _

theorem prefix_of_mem_comparatorNames {d : Declaration} :
    ∀ name ∈ comparatorNames d, "eq".toList <+: name.toList := by
  intro name hmem
  obtain ⟨names, hnames, hname⟩ := List.mem_flatMap.mp hmem
  have hrows : ∀ names ∈ comparators d, ∀ name? ∈ names, ∀ name, name? = some name →
      "eq".toList <+: name.toList := by
    refine (forall₂_comparators d).forall_mem_right fun c names hrow => ?_
    refine hrow.forall_mem_right fun ⟨m, position⟩ name? hfits name hname => ?_
    cases hrec : d.isRecursiveMember m with
    | true => cases hname.symm.trans (hfits.eq_none hrec)
    | false =>
      obtain ⟨name', hname', hprefix⟩ := hfits.exists_name hrec
      rwa [← Option.some.inj (hname.symm.trans hname')] at hprefix
  exact hrows names hnames _ (List.reduceOption_mem_iff.mp hname) name rfl

theorem map_name_comparatorParams (d : Declaration) :
    (comparatorParams d).map (·.name) = comparatorNames d := by
  rw [comparatorParams, List.map_flatMap]
  refine (forall₂_comparators d).flatMap_zip_right fun c names hrow => ?_
  have hlen : names.length ≤ c.members.length := by
    rw [← hrow.length_eq, List.length_zipIdx]
  calc
    _ = (c.members.zip names).filterMap (·.2) := by
      rw [List.map_filterMap]
      congr 1
      funext ⟨m, name?⟩
      cases name? <;> rfl
    _ = ((c.members.zip names).map (·.2)).reduceOption := by
      rw [List.reduceOption, List.filterMap_map]
      rfl
    _ = names.reduceOption := by rw [List.map_snd_zip hlen]

/-- Each comparator with the value passed for it. -/
def bindings (d : Declaration) (comparator : Constructor → Nat → Value ν) :
    List (String × Value ν) :=
  (d.constructors.zip (comparators d)).flatMap fun (c, names) =>
    (c.members.zipIdx.zip names).filterMap fun ((_, position), name?) =>
      name?.map fun name => (name, comparator c position)

theorem map_fst_bindings (d : Declaration) (comparator : Constructor → Nat → Value ν) :
    (bindings d comparator).map (·.1) = comparatorNames d := by
  rw [bindings, List.map_flatMap]
  refine (forall₂_comparators d).flatMap_zip_right fun c names hrow => ?_
  rw [List.map_filterMap, List.reduceOption, List.filterMap_eq_flatMap_toList,
    List.filterMap_eq_flatMap_toList]
  refine hrow.flatMap_zip_right fun member name? _ => ?_
  cases name? <;> rfl

theorem map_snd_bindings (d : Declaration) (comparator : Constructor → Nat → Value ν) :
    (bindings d comparator).map (·.2) = arguments d comparator := by
  rw [bindings, List.map_flatMap]
  refine (forall₂_comparators d).flatMap_zip_left fun c names hrow => ?_
  rw [List.map_filterMap, List.filterMap_eq_flatMap_toList, List.filterMap_eq_flatMap_toList]
  refine hrow.flatMap_zip_left fun ⟨m, position⟩ name? hfits => ?_
  cases hrec : d.isRecursiveMember m with
  | true => simp [hfits.eq_none hrec, hrec]
  | false =>
    obtain ⟨name, rfl, -⟩ := hfits.exists_name hrec
    simp [hrec]

/-- A comparator's name stands for the comparator passed for the member. -/
theorem lookup_comparator {d : Declaration} {c : Constructor} {names : List (Option String)}
    {m : Member} {position : Nat} {name : String}
    (hrow : (c, names) ∈ d.constructors.zip (comparators d))
    (hname : ((m, position), some name) ∈ c.members.zipIdx.zip names)
    (comparator : Constructor → Nat → Value ν) (env : Env ν) :
    (Env.bind (comparatorNames d) (arguments d comparator) env).lookup name =
      some (.value (comparator c position)) := by
  have hmem : (name, comparator c position) ∈ bindings d comparator :=
    List.mem_flatMap.mpr ⟨(c, names), hrow, List.mem_filterMap.mpr ⟨_, hname, rfl⟩⟩
  have hnodup : ((bindings d comparator).map (·.1)).Nodup := by
    rw [map_fst_bindings]
    exact nodup_comparatorNames d
  rw [← map_fst_bindings d comparator, ← map_snd_bindings]
  exact lookup_bind_of_mem hnodup hmem env

/-! ## The shapes of the comparison -/

theorem constructor_unique_of_product {d : Declaration} (hsum : d.isSum = false)
    {c c' : Constructor} (hc : c ∈ d.constructors) (hc' : c' ∈ d.constructors) : c = c' := by
  obtain ⟨only, honly⟩ := Declaration.exists_constructors_eq hsum
  rw [honly, List.mem_singleton] at hc hc'
  rw [hc, hc']

/-- Values with the same tag have the same constructor. -/
theorem HasTag.constructor_unique {host : Host ν} {d : Declaration} {options : Options}
    {c c' : Constructor} {value : Value ν} (h : HasTag host d options c value)
    (h' : HasTag host d options c' value) (hc : c ∈ d.constructors) (hc' : c' ∈ d.constructors) :
    c = c' := by
  cases hsum : d.isSum with
  | true =>
    have hname : c.name = c'.name := by
      have heq := (h hsum).symm.trans (h' hsum)
      injection heq with heq
      injection heq
    exact List.inj_on_of_nodup_map d.nodup_constructors hc hc' hname
  | false => exact constructor_unique_of_product hsum hc hc'

section Shapes

variable {host : Host ν} {env : Env ν} {options : Options} {x y : Value ν} {tx ty : String}

theorem eval_tag_strictEq {name : String} {value : Value ν} {tag : String}
    (hname : env.lookup name = some (.value value))
    (htag : value.read host options.tagName = some (.str tag)) (label : String) :
    eval host env (.strictEq (tagOf options name) (.str label)) =
      some (.bool (tag == label)) := by
  rw [eval_strictEq, tagOf, eval_member_ident hname, htag, eval_str]
  rfl

/-- One link of the chain: the members decide if both tags are the constructor's name. -/
theorem exec_compareVariant (hx : env.lookup "x" = some (.value x))
    (hy : env.lookup "y" = some (.value y))
    (htx : x.read host options.tagName = some (.str tx))
    (hty : y.read host options.tagName = some (.str ty)) (c : Constructor)
    (names : List (Option String)) (rest : List Stmt) :
    exec host env (compareVariant options c names :: rest) =
      if tx = c.name ∧ ty = c.name then
        (eval host env (compareMembers c names)).map .returned
      else exec host env rest := by
  have hcondition := eval_and_of_bool (eval_tag_strictEq hx htx c.name)
    (eval_tag_strictEq hy hty c.name)
  rw [compareVariant, exec_ifThen_ret hcondition]
  simp only [Bool.and_eq_true, beq_iff_eq]

/-- The chain, where both values have the tag of one of the constructors. -/
theorem exec_variants_of_mem (hx : env.lookup "x" = some (.value x))
    (hy : env.lookup "y" = some (.value y)) {rows : List (Constructor × List (Option String))}
    (hnodup : (rows.map (·.1.name)).Nodup) {c : Constructor} {names : List (Option String)}
    (hmem : (c, names) ∈ rows) (htx : x.read host options.tagName = some (.str c.name))
    (hty : y.read host options.tagName = some (.str c.name)) :
    exec host env (rows.map (fun row => compareVariant options row.1 row.2) ++
      [.ret (.bool false)]) = (eval host env (compareMembers c names)).map .returned := by
  induction rows with
  | nil => cases hmem
  | cons row rows ih =>
    obtain ⟨hnotMem, hnodup⟩ := List.nodup_cons.mp hnodup
    rw [List.map_cons, List.cons_append, exec_compareVariant hx hy htx hty]
    rcases List.mem_cons.mp hmem with rfl | hmem
    · rw [if_pos ⟨rfl, rfl⟩]
    · have hne : c.name ≠ row.1.name := fun heq => hnotMem (List.mem_map.mpr ⟨_, hmem, heq⟩)
      rw [if_neg fun h => hne h.1]
      exact ih hnodup hmem

/-- The chain, where the tags differ. -/
theorem exec_variants_of_ne (hx : env.lookup "x" = some (.value x))
    (hy : env.lookup "y" = some (.value y))
    (htx : x.read host options.tagName = some (.str tx))
    (hty : y.read host options.tagName = some (.str ty)) (hne : tx ≠ ty)
    (rows : List (Constructor × List (Option String))) :
    exec host env (rows.map (fun row => compareVariant options row.1 row.2) ++
      [.ret (.bool false)]) = some (.returned (.bool false)) := by
  induction rows with
  | nil =>
    rw [List.map_nil, List.nil_append, exec_ret, eval_bool]
    rfl
  | cons row rows ih =>
    rw [List.map_cons, List.cons_append, exec_compareVariant hx hy htx hty,
      if_neg fun h => hne (h.1.trans h.2.symm)]
    exact ih

end Shapes

theorem lookup_x (x y : Value ν) (env : Env ν) :
    (Env.bind ["x", "y"] [x, y] env).lookup "x" = some (.value x) := rfl

theorem lookup_y (x y : Value ν) (env : Env ν) :
    (Env.bind ["x", "y"] [x, y] env).lookup "y" = some (.value y) := rfl

/-- The function compares values of one constructor by their members, and values of two
constructors are not equal. -/
structure Compares (host : Host ν) (d : Declaration) (options : Options) (env : Env ν)
    (equals : Value ν) : Prop where
  same : ∀ {c names x y}, (c, names) ∈ d.constructors.zip (comparators d) →
    HasTag host d options c x → HasTag host d options c y →
    call host equals [x, y] =
      eval host (Env.bind ["x", "y"] [x, y] env) (compareMembers c names)
  differ : ∀ {c c' x y}, c ∈ d.constructors → c' ∈ d.constructors → c ≠ c' →
    HasTag host d options c x → HasTag host d options c' y →
    call host equals [x, y] = some (.bool false)

theorem eval_compareMembers_of_isNullary {c : Constructor} (h : c.isNullary = true)
    (host : Host ν) (env : Env ν) (names : List (Option String)) :
    eval host env (compareMembers c names) = some (.bool true) := by
  rw [compareMembers, List.isEmpty_iff.mp h]
  simp [Expr.conjunction]

theorem isNullary_of_isEnum {d : Declaration} (henum : d.isEnum = true) {c : Constructor}
    (hc : c ∈ d.constructors) : c.isNullary = true :=
  List.all_eq_true.mp henum c hc

theorem name_ne_of_ne {d : Declaration} {c c' : Constructor} (hc : c ∈ d.constructors)
    (hc' : c' ∈ d.constructors) (hne : c ≠ c') : c.name ≠ c'.name :=
  fun heq => hne (List.inj_on_of_nodup_map d.nodup_constructors hc hc' heq)

section

variable {d : Declaration} (host : Host ν) (options : Options) (env : Env ν)

/-- Without members, the tags decide alone. -/
theorem compares_tags (henum : d.isEnum = true) (hsum : d.isSum = true) :
    Compares host d options env (.closure ["x", "y"]
      [.ret (.strictEq (tagOf options "x") (tagOf options "y"))] env) := by
  have hcall : ∀ {c c' x y}, HasTag host d options c x → HasTag host d options c' y →
      call host (.closure ["x", "y"]
        [.ret (.strictEq (tagOf options "x") (tagOf options "y"))] env) [x, y] =
        some (.bool (c.name == c'.name)) := by
    intro c c' x y hx hy
    refine call_closure_of_exec ?_
    rw [exec_ret, eval_strictEq, tagOf, tagOf, eval_member_ident (lookup_x x y env),
      eval_member_ident (lookup_y x y env), hx hsum, hy hsum]
    rfl
  refine ⟨fun hrow hx hy => ?_, fun hc hc' hne hx hy => ?_⟩
  · have hnullary := isNullary_of_isEnum henum (List.of_mem_zip hrow).1
    rw [hcall hx hy, eval_compareMembers_of_isNullary hnullary, beq_self_eq_true]
  · rw [hcall hx hy, beq_false_of_ne (name_ne_of_ne hc hc' hne)]

/-- A product without members has one value. -/
theorem compares_unit (henum : d.isEnum = true) (hsum : d.isSum = false) :
    Compares host d options env (.closure [] [.ret (.bool true)] env) := by
  refine ⟨fun hrow _ _ => ?_, fun hc hc' hne _ _ => ?_⟩
  · have hnullary := isNullary_of_isEnum henum (List.of_mem_zip hrow).1
    rw [eval_compareMembers_of_isNullary hnullary]
    refine call_closure_of_exec ?_
    rw [exec_ret, eval_bool]
  · exact absurd (constructor_unique_of_product hsum hc hc') hne

/-- A sum asks for one constructor after another whether it made both values. -/
theorem compares_chain (hsum : d.isSum = true) :
    Compares host d options env (.closure ["x", "y"]
      (d.constructors.zipWith (compareVariant options) (comparators d) ++ [.ret (.bool false)])
      env) := by
  rw [← List.map_uncurry_zip_eq_zipWith]
  refine ⟨fun {c names x y} hrow hx hy => ?_, fun {c c' x y} hc hc' hne hx hy => ?_⟩
  · refine call_closure_of_exec ?_
    exact exec_variants_of_mem (lookup_x x y env) (lookup_y x y env)
      (nodup_names_zip_comparators d) hrow (hx hsum) (hy hsum)
  · refine call_closure_of_exec ?_
    exact exec_variants_of_ne (lookup_x x y env) (lookup_y x y env) (hx hsum) (hy hsum)
      (name_ne_of_ne hc hc' hne) _

/-- A product has nothing to compare but the members. -/
theorem compares_product (hsum : d.isSum = false) :
    Compares host d options env (.closure ["x", "y"]
      (d.constructors.zipWith (fun c names => .ret (compareMembers c names)) (comparators d))
      env) := by
  refine ⟨fun {c names x y} hrow _ _ => ?_, fun hc hc' hne _ _ => ?_⟩
  · refine call_closure_of_exec ?_
    obtain ⟨honly, hrows⟩ := eq_singleton_of_product hsum hrow
    rw [honly, hrows, List.zipWith_cons_cons, exec_ret]
  · exact absurd (constructor_unique_of_product hsum hc hc') hne

theorem exists_comparison (d : Declaration) :
    ∃ equals, eval host env (comparison d options) = some equals ∧
      Compares host d options env equals := by
  rw [comparison]
  cases henum : d.isEnum with
  | true =>
    cases hsum : d.isSum with
    | true => exact ⟨_, eval_arrow _ _, compares_tags host options env henum hsum⟩
    | false => exact ⟨_, eval_arrow _ _, compares_unit host options env henum hsum⟩
  | false =>
    cases hsum : d.isSum with
    | true => exact ⟨_, eval_arrowBlock _ _, compares_chain host options env hsum⟩
    | false => exact ⟨_, eval_arrowBlock _ _, compares_product host options env hsum⟩

end

/-! ## Members -/

/-- What the comparison finds in scope: the comparators, and itself where members are recursive. -/
structure Supplies (host : Host ν) (d : Declaration) (comparator : Constructor → Nat → Value ν)
    (equals : Value ν) (env : Env ν) : Prop where
  compared : ∀ {c names m position name}, (c, names) ∈ d.constructors.zip (comparators d) →
    ((m, position), some name) ∈ c.members.zipIdx.zip names →
    eval host env (.ident name) = some (comparator c position)
  recursive : d.isRecursive = true → ∃ self, eval host env (.ident selfName) = some self ∧
    self.read host "equals" = some equals

theorem eval_compareProperty {host : Host ν} {env : Env ν} {x y a b comparator : Value ν}
    {name property : String} (hx : env.lookup "x" = some (.value x))
    (hy : env.lookup "y" = some (.value y)) (ha : x.read host property = some a)
    (hb : y.read host property = some b) (hname : eval host env (.ident name) = some comparator) :
    eval host env (compareProperty name property) = compare host comparator a b := by
  rw [compareProperty, compare, eval_call, eval_member, hname]
  simp [List.mapM_cons, eval_member_ident hx, eval_member_ident hy, ha, hb]

theorem isRecursive_of_mem {d : Declaration} {c : Constructor} {m : Member} {position : Nat}
    (hc : c ∈ d.constructors) (hm : (m, position) ∈ c.members.zipIdx)
    (hrec : d.isRecursiveMember m = true) : d.isRecursive = true := by
  have hmem : m ∈ c.members := List.mem_of_getElem? (List.mem_zipIdx_iff_getElem?.mp hm)
  exact List.any_eq_true.mpr ⟨c, hc, List.any_eq_true.mpr ⟨m, hmem, hrec⟩⟩

/-- A member is compared by its comparator, or by the equality itself if it is recursive. -/
noncomputable def compareMember (host : Host ν) (d : Declaration)
    (comparator : Constructor → Nat → Value ν) (equals : Value ν) (c : Constructor) (m : Member)
    (position : Nat) (a b : Value ν) : Option (Value ν) :=
  if d.isRecursiveMember m then call host equals [a, b]
  else compare host (comparator c position) a b

theorem eval_compareMember {host : Host ν} {d : Declaration}
    {comparator : Constructor → Nat → Value ν} {equals x y a b : Value ν} {env : Env ν}
    (hsupplies : Supplies host d comparator equals env)
    (hx : env.lookup "x" = some (.value x)) (hy : env.lookup "y" = some (.value y))
    {c : Constructor} {names : List (Option String)}
    (hrow : (c, names) ∈ d.constructors.zip (comparators d)) {m : Member} {position : Nat}
    {name? : Option String} (hmem : ((m, position), name?) ∈ c.members.zipIdx.zip names)
    (hfits : Fits d (m, position) name?) (ha : x.read host (m.property position) = some a)
    (hb : y.read host (m.property position) = some b) :
    eval host env (compareProperty (name?.getD selfName) (m.property position)) =
      compareMember host d comparator equals c m position a b := by
  rw [compareMember]
  cases hrec : d.isRecursiveMember m with
  | true =>
    obtain rfl := hfits.eq_none hrec
    obtain ⟨self, hself, hequals⟩ := hsupplies.recursive
      (isRecursive_of_mem (List.of_mem_zip hrow).1 (List.of_mem_zip hmem).1 hrec)
    rw [Option.getD_none, eval_compareProperty hx hy ha hb hself, compare, hequals]
    rfl
  | false =>
    obtain ⟨name, rfl, -⟩ := hfits.exists_name hrec
    rw [Option.getD_some, eval_compareProperty hx hy ha hb (hsupplies.compared hrow hmem)]
    rfl

theorem compareMembers_eq (c : Constructor) (names : List (Option String)) :
    compareMembers c names = .conjunction ((c.members.zipIdx.zip names).map
      fun ((m, position), name?) =>
        compareProperty (name?.getD selfName) (m.property position)) := by
  rw [compareMembers, List.zipIdx_zip, List.map_map]
  rfl

/-! ## Finite values -/

section Recursion

variable {host : Host ν} {d : Declaration} {options : Options}
  {comparator : Constructor → Nat → Value ν} {equals : Value ν} {env : Env ν}

/-- The equality as it stands in its own scope. -/
structure IsEquality (host : Host ν) (d : Declaration) (options : Options)
    (comparator : Constructor → Nat → Value ν) (equals : Value ν) (env : Env ν) : Prop where
  compares : Compares host d options env equals
  supplies : ∀ x y, Supplies host d comparator equals (Env.bind ["x", "y"] [x, y] env)

section SameConstructor

variable {c : Constructor} {x y : Value ν}

/-- Values of one constructor are equal if their members are. -/
theorem IsEquality.call_eq_true_iff (h : IsEquality host d options comparator equals env)
    (hc : c ∈ d.constructors) (hobject : x.IsObject) (hobject' : y.IsObject)
    (hx : HasTag host d options c x) (hy : HasTag host d options c y) :
    call host equals [x, y] = some (.bool true) ↔
      ∀ m position a b, (m, position) ∈ c.members.zipIdx →
        x.read host (m.property position) = some a → y.read host (m.property position) = some b →
        compareMember host d comparator equals c m position a b = some (.bool true) := by
  obtain ⟨names, hrow, hfits⟩ := (forall₂_comparators d).exists_mem_zip hc
  rw [h.compares.same hrow hx hy, compareMembers_eq, eval_conjunction_eq_true_iff]
  have heval := fun {m position name? a b} => @eval_compareMember _ _ _ _ _ _ _ a b _
    (h.supplies x y) (lookup_x x y env) (lookup_y x y env) _ _ hrow m position name?
  constructor
  · intro hall m position a b hm ha hb
    obtain ⟨name?, hmem, hname⟩ := hfits.exists_mem_zip hm
    rw [← heval hmem hname ha hb]
    exact hall _ (List.mem_map.mpr ⟨((m, position), name?), hmem, rfl⟩)
  · intro hall part hpart
    obtain ⟨⟨⟨m, position⟩, name?⟩, hmem, rfl⟩ := List.mem_map.mp hpart
    obtain ⟨a, ha⟩ := hobject.exists_read host (m.property position)
    obtain ⟨b, hb⟩ := hobject'.exists_read host (m.property position)
    rw [heval hmem ((List.forall₂_iff_zip.mp hfits).2 hmem) ha hb]
    exact hall m position a b (List.of_mem_zip hmem).1 ha hb

/-- The equality of values of one constructor is decided if that of their members is. -/
theorem IsEquality.exists_call (h : IsEquality host d options comparator equals env)
    (hc : c ∈ d.constructors) (hobject : x.IsObject) (hobject' : y.IsObject)
    (hx : HasTag host d options c x) (hy : HasTag host d options c y)
    (hmembers : ∀ m position a b, (m, position) ∈ c.members.zipIdx →
      x.read host (m.property position) = some a → y.read host (m.property position) = some b →
      ∃ result, compareMember host d comparator equals c m position a b = some (.bool result)) :
    ∃ result, call host equals [x, y] = some (.bool result) := by
  obtain ⟨names, hrow, hfits⟩ := (forall₂_comparators d).exists_mem_zip hc
  rw [h.compares.same hrow hx hy, compareMembers_eq]
  refine exists_eval_conjunction fun part hpart => ?_
  obtain ⟨⟨⟨m, position⟩, name?⟩, hmem, rfl⟩ := List.mem_map.mp hpart
  obtain ⟨a, ha⟩ := hobject.exists_read host (m.property position)
  obtain ⟨b, hb⟩ := hobject'.exists_read host (m.property position)
  rw [eval_compareMember (h.supplies x y) (lookup_x x y env) (lookup_y x y env) hrow hmem
    ((List.forall₂_iff_zip.mp hfits).2 hmem) ha hb]
  exact hmembers m position a b (List.of_mem_zip hmem).1 ha hb

end SameConstructor

/-- The equality relates two finite values exactly if they have the same structure. -/
theorem IsEquality.call_eq_true_iff_sameStructure
    (h : IsEquality host d options comparator equals env) {x y : Value ν}
    (hx : IsValue host d options x) (hy : IsValue host d options y) :
    call host equals [x, y] = some (.bool true) ↔
      SameStructure host d options comparator x y := by
  -- the induction is over the first value; the members of the second are as deep
  induction hx generalizing y with
  | @intro x c hc hobject htag hmembers ih =>
    obtain @⟨_, c', hc', hobject', htag', hmembers'⟩ := hy
    by_cases hsame : c = c'
    · subst hsame
      rw [h.call_eq_true_iff hc hobject hobject' htag htag']
      constructor
      · intro hall
        refine .intro hc htag htag' (fun hm hrec ha hb => ?_) (fun hm hrec ha hb => ?_)
        · have hcompare := hall _ _ _ _ hm ha hb
          rwa [compareMember, if_neg (by simp [hrec])] at hcompare
        · have hcall := hall _ _ _ _ hm ha hb
          rw [compareMember, if_pos hrec] at hcall
          exact (ih hm hrec ha (hmembers' hm hrec hb)).mp hcall
      · rintro ⟨hc'', hx, -, hcompared, hrecursive⟩ m position a b hm ha hb
        obtain rfl := htag.constructor_unique hx hc hc''
        rw [compareMember]
        cases hrec : d.isRecursiveMember m with
        | true => exact (ih hm hrec ha (hmembers' hm hrec hb)).mpr (hrecursive hm hrec ha hb)
        | false => exact hcompared hm hrec ha hb
    · -- the tags differ, so neither side holds
      rw [h.compares.differ hc hc' hsame htag htag']
      constructor
      · intro hfalse
        cases hfalse
      · rintro ⟨hc'', hx, hy, -, -⟩
        have heq := htag.constructor_unique hx hc hc''
        exact absurd (heq.trans (htag'.constructor_unique hy hc' hc'').symm) hsame

/-- The equality decides if the comparators do. -/
theorem IsEquality.exists_call_of_isValue (h : IsEquality host d options comparator equals env)
    (hcomparators : ∀ c position a b,
      ∃ result, compare host (comparator c position) a b = some (.bool result))
    {x y : Value ν} (hx : IsValue host d options x) (hy : IsValue host d options y) :
    ∃ result, call host equals [x, y] = some (.bool result) := by
  induction hx generalizing y with
  | @intro x c hc hobject htag hmembers ih =>
    obtain @⟨_, c', hc', hobject', htag', hmembers'⟩ := hy
    by_cases hsame : c = c'
    · subst hsame
      refine h.exists_call hc hobject hobject' htag htag' fun m position a b hm ha hb => ?_
      rw [compareMember]
      cases hrec : d.isRecursiveMember m with
      | true => exact ih hm hrec ha (hmembers' hm hrec hb)
      | false => exact hcomparators c position a b
    · exact ⟨false, h.compares.differ hc hc' hsame htag htag'⟩

end Recursion

/-! ## The function that makes the equality -/

section Assembly

variable {host : Host ν} {library : Value ν}

theorem eval_fromEquals {env : Env ν} {test : Expr} {equals : Value ν}
    (hlibrary : env.lookup "fromEquals" = some (.value library))
    (htest : eval host env test = some equals) :
    eval host env (fromEquals test) = call host library [equals] := by
  rw [fromEquals, eval_call, eval_ident hlibrary]
  simp [List.mapM_cons, htest]

theorem ne_of_mem_comparatorNames {d : Declaration} {name : String}
    (hmem : name ∈ comparatorNames d) (other : String) (hother : ¬ "eq".toList <+: other.toList) :
    name ≠ other := by
  rintro rfl
  exact hother (prefix_of_mem_comparatorNames name hmem)

/-- A scope in which the comparators have their names makes a comparison an equality. -/
theorem IsEquality.of_scope {d : Declaration} {options : Options}
    {comparator : Constructor → Nat → Value ν} {equals : Value ν} {scope : Env ν} (env : Env ν)
    (hscope : ∀ name ∈ comparatorNames d, scope.lookup name =
      (Env.bind (comparatorNames d) (arguments d comparator) env).lookup name)
    (hcompares : Compares host d options scope equals)
    (hself : d.isRecursive = true → ∃ self, self.read host "equals" = some equals ∧
      ∀ x y, eval host (Env.bind ["x", "y"] [x, y] scope) (.ident selfName) = some self) :
    IsEquality host d options comparator equals scope := by
  refine ⟨hcompares, fun x y => ⟨?_, ?_⟩⟩
  · intro c names m position name hrow hname
    have hmem : name ∈ comparatorNames d :=
      List.mem_flatMap.mpr ⟨names, (List.of_mem_zip hrow).2,
        List.reduceOption_mem_iff.mpr (List.of_mem_zip hname).2⟩
    have hxy : name ∉ ["x", "y"] := by
      have hx := ne_of_mem_comparatorNames hmem "x" (by decide)
      have hy := ne_of_mem_comparatorNames hmem "y" (by decide)
      simp [hx, hy]
    refine eval_ident ?_
    rw [lookup_bind_of_notMem hxy, hscope name hmem]
    exact lookup_comparator hrow hname comparator env
  · intro hrec
    obtain ⟨self, hread, heval⟩ := hself hrec
    exact ⟨self, heval x y, hread⟩

/-- `getEq` returns an equality, which finds its comparators and itself in scope. -/
theorem exists_isEquality {env : Env ν} (hlibrary : env.lookup "fromEquals" = some (.value library))
    (hfromEquals : ∀ f, ∃ equality, call host library [f] = some equality ∧
      equality.read host "equals" = some f)
    (d : Declaration) (options : Options) (comparator : Constructor → Nat → Value ν) :
    ∃ getEq equality equals scope, (item d options).eval host env = some getEq ∧
      call host getEq (arguments d comparator) = some equality ∧
      equality.read host "equals" = some equals ∧
      IsEquality host d options comparator equals scope := by
  let inner : Env ν := Env.bind (comparatorNames d) (arguments d comparator) env
  have hinner : inner.lookup "fromEquals" = some (.value library) := by
    rw [← hlibrary]
    refine lookup_bind_of_notMem (fun hmem => ?_) _ _
    exact ne_of_mem_comparatorNames hmem "fromEquals" (by decide) rfl
  rw [item, Item.eval, map_name_comparatorParams]
  -- only the equality of a recursive type is given a name
  cases hrec : d.isRecursive with
  | false =>
    obtain ⟨equals, hequals, hcompares⟩ := exists_comparison host options inner d
    obtain ⟨equality, hcall, hread⟩ := hfromEquals equals
    refine ⟨_, equality, equals, inner, rfl, ?_, hread, ?_⟩
    · refine call_closure_of_exec ?_
      rw [if_neg (by simp), exec_ret, eval_fromEquals hinner hequals, hcall]
    · exact .of_scope env (fun _ _ => rfl) hcompares fun hrec' => absurd hrec' (by simp [hrec])
  | true =>
    let scope : Env ν := (selfName, .const (fromEquals (comparison d options)) inner) :: inner
    obtain ⟨equals, hequals, hcompares⟩ := exists_comparison host options scope d
    obtain ⟨equality, hcall, hread⟩ := hfromEquals equals
    have hscope : scope.lookup "fromEquals" = some (.value library) :=
      (List.lookup_cons_of_ne (by decide) _ _).trans hinner
    have hdefinition : eval host scope (fromEquals (comparison d options)) = some equality :=
      (eval_fromEquals hscope hequals).trans hcall
    -- wherever the equality names itself, it means the equality of this scope
    have hself : ∀ env' : Env ν, env'.lookup selfName = scope.lookup selfName →
        eval host env' (.ident selfName) = some equality := by
      intro env' henv'
      rw [eval_ident_const (henv'.trans List.lookup_cons_self), hdefinition]
    refine ⟨_, equality, equals, scope, rfl, ?_, hread, ?_⟩
    · refine call_closure_of_exec ?_
      rw [if_pos rfl]
      refine (exec_const hdefinition _).trans ?_
      rw [exec_ret, hself _ rfl]
    · refine .of_scope env (fun name hmem => ?_) hcompares
        fun _ => ⟨equality, hread, fun x y => ?_⟩
      · exact List.lookup_cons_of_ne (ne_of_mem_comparatorNames hmem selfName (by decide)) _ _
      · exact hself _ (lookup_bind_of_notMem (by decide) _ _)

end Assembly

/-- The function that a bundle has for its equality, given comparators in the order of its
parameters, returns an equality whose `equals` relates two finite values of the declared type
exactly if they have the same structure; and it answers with a truth value if the comparators do. -/
theorem getEq_decides_sameStructure (host : Host ν) (d : Declaration) {options : Options}
    (hemit : options.emitEquality = true) {env : Env ν} {library : Value ν}
    (hlibrary : env.lookup "fromEquals" = some (.value library))
    (hfromEquals : ∀ f, ∃ equality, call host library [f] = some equality ∧
      equality.read host "equals" = some f)
    (comparator : Constructor → Nat → Value ν) :
    ∃ item getEq equality equals, d.itemsOf options .equality = [item] ∧
      item.eval host env = some getEq ∧
      call host getEq (arguments d comparator) = some equality ∧
      equality.read host "equals" = some equals ∧
      ∀ x y, IsValue host d options x → IsValue host d options y →
        (call host equals [x, y] = some (.bool true) ↔
          SameStructure host d options comparator x y) ∧
        ((∀ c position a b,
            ∃ result, compare host (comparator c position) a b = some (.bool result)) →
          ∃ result, call host equals [x, y] = some (.bool result)) := by
  obtain ⟨getEq, equality, equals, scope, hitem, hcall, hread, hequality⟩ :=
    exists_isEquality hlibrary hfromEquals d options comparator
  refine ⟨_, getEq, equality, equals, Declaration.itemsOf_equality hemit d, hitem, hcall, hread,
    fun x y hx hy => ⟨hequality.call_eq_true_iff_sameStructure hx hy, ?_⟩⟩
  exact fun hcomparators => hequality.exists_call_of_isValue hcomparators hx hy

/-- A host with one function, which wraps its argument as the equality does. -/
def wrappingHost : Host Unit where
  read _ _ := .undefined
  call _ args := args.head?.map fun f => .object [("equals", f)]

/-- A comparator for strings. -/
def strictComparator : Value Unit :=
  .object [("equals", .closure ["a", "b"] [.ret (.strictEq (.ident "a") (.ident "b"))] [])]

/-- `data List A = Nil | Cons A (List A)` -/
def listDeclaration : Declaration where
  name := "List"
  parameters := [⟨"A", none⟩]
  constructors := [.ofTypes "Nil" [], .ofTypes "Cons" [.var "A", .ref "List" [.var "A"]]]
  constructors_ne_nil := List.cons_ne_nil _ _
  nodup_parameters := List.nodup_singleton "A"
  nodup_constructors := by decide

/-- The list that holds the given strings. -/
def listValue : List String → Value Unit
  | [] => .object [("type", .str "Nil")]
  | head :: tail =>
    .object [("type", .str "Cons"), ("value0", .str head), ("value1", listValue tail)]

theorem mem_zipIdx_cons {m : Member} {position : Nat}
    (h : (m, position) ∈ [Member.positional (.var "A"),
      .positional (.ref "List" [.var "A"])].zipIdx) :
    (m = .positional (.var "A") ∧ position = 0) ∨
      (m = .positional (.ref "List" [.var "A"]) ∧ position = 1) := by
  simpa using h

theorem isValue_listValue (values : List String) :
    IsValue wrappingHost listDeclaration {}
      (listValue values) := by
  induction values with
  | nil =>
    refine .intro (c := ⟨"Nil", [], _, _⟩) List.mem_cons_self trivial (fun _ => rfl) ?_
    exact nofun
  | cons head tail ih =>
    refine .intro (c := ⟨"Cons", _, _, _⟩) (List.mem_cons_of_mem _ List.mem_cons_self) trivial
      (fun _ => rfl) ?_
    intro m position member hm hrec hread
    rcases mem_zipIdx_cons hm with ⟨rfl, rfl⟩ | ⟨rfl, rfl⟩
    · cases hrec
    · obtain rfl := Option.some.inj hread
      exact ih

theorem compare_strictComparator (value : String) :
    compare wrappingHost strictComparator (.str value) (.str value) = some (.bool true) := by
  have ha : (Env.bind ["a", "b"] [.str value, .str value] ([] : Env Unit)).lookup "a" =
      some (.value (.str value)) := rfl
  have hb : (Env.bind ["a", "b"] [.str value, .str value] ([] : Env Unit)).lookup "b" =
      some (.value (.str value)) := rfl
  refine call_closure_of_exec ?_
  rw [exec_ret, eval_strictEq, eval_ident ha, eval_ident hb]
  simp [Value.strictEq]

theorem sameStructure_listValue (values : List String) :
    SameStructure wrappingHost listDeclaration {}
      (fun _ _ => strictComparator) (listValue values) (listValue values) := by
  induction values with
  | nil =>
    refine .intro (c := ⟨"Nil", [], _, _⟩) List.mem_cons_self (fun _ => rfl) (fun _ => rfl) ?_ ?_
    · exact nofun
    · exact nofun
  | cons head tail ih =>
    refine .intro (c := ⟨"Cons", _, _, _⟩) (List.mem_cons_of_mem _ List.mem_cons_self)
      (fun _ => rfl) (fun _ => rfl) ?_ ?_
    · intro m position a b hm hrec ha hb
      rcases mem_zipIdx_cons hm with ⟨rfl, rfl⟩ | ⟨rfl, rfl⟩
      · obtain rfl : a = .str head := (Option.some.inj ha).symm
        obtain rfl : b = .str head := (Option.some.inj hb).symm
        exact compare_strictComparator head
      · cases hrec
    · intro m position a b hm hrec ha hb
      rcases mem_zipIdx_cons hm with ⟨rfl, rfl⟩ | ⟨rfl, rfl⟩
      · cases hrec
      · obtain rfl := Option.some.inj ha
        obtain rfl := Option.some.inj hb
        exact ih

/-- The equality of lists relates a list of strings to itself and not to the empty list. -/
theorem list_getEq_cons :
    ∃ item getEq equality equals,
      listDeclaration.itemsOf {} .equality = [item] ∧
      item.eval wrappingHost [("fromEquals", .value (.host ()))] = some getEq ∧
      call wrappingHost getEq [strictComparator] = some equality ∧
      equality.read wrappingHost "equals" = some equals ∧
      call wrappingHost equals [listValue ["1", "2"], listValue ["1", "2"]] = some (.bool true) ∧
      call wrappingHost equals [listValue ["1", "2"], listValue []] ≠ some (.bool true) := by
  have hfromEquals : ∀ f : Value Unit, ∃ equality,
      call wrappingHost (.host ()) [f] = some equality ∧
        equality.read wrappingHost "equals" = some f :=
    fun f => ⟨.object [("equals", f)], by rw [call, run_eq]; rfl, rfl⟩
  have hlibrary : ([("fromEquals", .value (.host ()))] : Env Unit).lookup "fromEquals" =
      some (.value (.host ())) := rfl
  have hemit : ({} : Options).emitEquality = true := rfl
  obtain ⟨item, getEq, equality, equals, hitem, heval, hcall, hread, hequals⟩ :=
    getEq_decides_sameStructure wrappingHost listDeclaration hemit hlibrary hfromEquals
      fun _ _ => strictComparator
  refine ⟨item, getEq, equality, equals, hitem, heval, hcall, hread, ?_, ?_⟩
  · exact (hequals _ _ (isValue_listValue _) (isValue_listValue _)).1.mpr
      (sameStructure_listValue _)
  · intro htrue
    obtain ⟨-, hx, hy, -, -⟩ :=
      (hequals _ _ (isValue_listValue _) (isValue_listValue _)).1.mp htrue
    have htags : (some (.str "Cons") : Option (Value Unit)) = some (.str "Nil") :=
      (hx rfl).trans (hy rfl).symm
    simp at htags

end AlgebraicData.Equality
