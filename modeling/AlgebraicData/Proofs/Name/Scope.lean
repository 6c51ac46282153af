import AlgebraicData.Name.Scope
import AlgebraicData.Proofs.Prelude

/-!
# Fresh names

A name that a scope gives is in use neither in the scope nor for a name that it gave before.  All of
it rests on `fresh_notMem`: candidates differ, so among one more candidate than there are names in
use one is free.  The other ways of taking names take the same names in the same order
(`takeEach_eq`, `takeRows_eq`), in another arrangement.
-/

namespace AlgebraicData.Scope

/-! ## One name -/

theorem candidate_injective (base : String) : Function.Injective (candidate base) := by
  have hne : ∀ n, base ≠ base ++ (n + 1).repr := by
    intro n h
    have hempty : base ++ "" = base ++ (n + 1).repr := by rw [String.append_empty, ← h]
    exact Nat.repr_ne_empty ((String.append_right_inj base).mp hempty).symm
  intro m n h
  cases m with
  | zero =>
    cases n with
    | zero => rfl
    | succ n => exact absurd h (hne n)
  | succ m =>
    cases n with
    | zero => exact absurd h.symm (hne m)
    | succ n => exact Nat.repr_inj.mp ((String.append_right_inj base).mp h)

/-- A fresh name is the wanted one with something appended. -/
theorem prefix_candidate (base : String) (n : Nat) : base.toList <+: (candidate base n).toList := by
  cases n with
  | zero => exact List.prefix_refl _
  | succ n =>
    rw [candidate, String.toList_append]
    exact List.prefix_append _ _

theorem prefix_fresh (scope : Scope) (base : String) :
    base.toList <+: (scope.fresh base).toList :=
  prefix_candidate base _

/-- A fresh name is not in use. -/
theorem fresh_notMem (scope : Scope) (base : String) : scope.fresh base ∉ scope.taken := by
  rw [fresh]
  cases hfind : (List.range scope.taken.length).find?
      fun i => !scope.isTaken (candidate base i) with
  | some i =>
    have hfree := List.find?_some hfind
    simpa [isTaken] using hfree
  | none =>
    -- as many candidates are taken as there are names in use
    have htaken : ∀ i < scope.taken.length, candidate base i ∈ scope.taken := by
      intro i hi
      have hi' := List.find?_eq_none.mp hfind i (List.mem_range.mpr hi)
      simpa [isTaken] using hi'
    intro hlast
    have hsubset : (List.range (scope.taken.length + 1)).map (candidate base) ⊆ scope.taken := by
      intro name hname
      obtain ⟨i, hi, rfl⟩ := List.mem_map.mp hname
      rcases Nat.lt_succ_iff_lt_or_eq.mp (List.mem_range.mp hi) with hlt | rfl
      · exact htaken i hlt
      · simpa using hlast
    have hnodup : ((List.range (scope.taken.length + 1)).map (candidate base)).Nodup :=
      List.nodup_range.map (candidate_injective base)
    have hle := (hnodup.subperm hsubset).length_le
    simp only [List.length_map, List.length_range] at hle
    omega

/-- A fresh name is the first candidate that is free. -/
theorem exists_fresh_eq (scope : Scope) (base : String) :
    ∃ n ≤ scope.taken.length, scope.fresh base = candidate base n ∧
      ∀ k < n, candidate base k ∈ scope.taken := by
  rw [fresh]
  cases hfind : (List.range scope.taken.length).find?
      fun i => !scope.isTaken (candidate base i) with
  | some i =>
    obtain ⟨-, hi, hbefore⟩ := List.find?_range_eq_some.mp hfind
    refine ⟨i, (List.mem_range.mp hi).le, rfl, fun k hk => ?_⟩
    simpa [isTaken] using hbefore k hk
  | none =>
    refine ⟨scope.taken.length, le_rfl, by simp, fun k hk => ?_⟩
    simpa [isTaken] using List.find?_range_eq_none.mp hfind k hk

/-- A name that is free is given as it is wanted. -/
theorem fresh_eq_self {scope : Scope} {base : String} (h : base ∉ scope.taken) :
    scope.fresh base = base := by
  obtain ⟨n, -, hfresh, hbefore⟩ := scope.exists_fresh_eq base
  cases n with
  | zero => exact hfresh
  | succ n => exact absurd (hbefore 0 n.succ_pos) h

/-! ## Many names -/

theorem taken_take (scope : Scope) (base : String) :
    (scope.take base).2.taken = scope.fresh base :: scope.taken := rfl

/-- The wanted name is in use from then on, whether it was given or was in use before. -/
theorem mem_taken_take (scope : Scope) (base : String) : base ∈ (scope.take base).2.taken := by
  rw [taken_take]
  by_cases h : base ∈ scope.taken
  · exact List.mem_cons_of_mem _ h
  · rw [fresh_eq_self h]
    exact List.mem_cons_self

/-- Names stay in use, and all wanted names are in use in the end. -/
theorem subset_taken_takeAll (scope : Scope) (bases : List String) :
    scope.taken ++ bases ⊆ (scope.takeAll bases).2.taken := by
  induction bases generalizing scope with
  | nil =>
    rw [List.append_nil]
    exact List.Subset.refl _
  | cons base bases ih =>
    have hrest := List.append_subset.mp (ih (scope.take base).2)
    refine List.append_subset.mpr ⟨fun name hname => hrest.1 ?_, List.cons_subset.mpr ⟨?_, hrest.2⟩⟩
    · rw [taken_take]
      exact List.mem_cons_of_mem _ hname
    · exact hrest.1 (scope.mem_taken_take base)

theorem takeAll_append (scope : Scope) (bases more : List String) :
    scope.takeAll (bases ++ more) =
      ((scope.takeAll bases).1 ++ ((scope.takeAll bases).2.takeAll more).1,
        ((scope.takeAll bases).2.takeAll more).2) := by
  induction bases generalizing scope with
  | nil => rfl
  | cons base bases ih => simp only [List.cons_append, takeAll, ih]

theorem length_takeAll (scope : Scope) (bases : List String) :
    (scope.takeAll bases).1.length = bases.length := by
  induction bases generalizing scope with
  | nil => rfl
  | cons base bases ih =>
    simp only [takeAll, List.length_cons]
    rw [ih]

/-- The names taken differ from one another and from those in use. -/
theorem nodup_takeAll (scope : Scope) (bases : List String) :
    (scope.takeAll bases).1.Nodup ∧ ∀ name ∈ (scope.takeAll bases).1, name ∉ scope.taken := by
  induction bases generalizing scope with
  | nil => exact ⟨List.nodup_nil, nofun⟩
  | cons base bases ih =>
    obtain ⟨hnodup, hfree⟩ := ih (scope.take base).2
    simp only [takeAll, List.nodup_cons, List.forall_mem_cons]
    simp only [taken_take, List.mem_cons, not_or] at hfree
    refine ⟨⟨fun hmem => (hfree _ hmem).1 rfl, hnodup⟩, scope.fresh_notMem base, ?_⟩
    exact fun name hmem => (hfree name hmem).2

/-- A property that each fresh name has or lacks with its wanted name is decided by those. -/
theorem forall_mem_takeAll_iff {P Q : String → Prop} {bases : List String}
    (h : ∀ base ∈ bases, ∀ scope : Scope, P (scope.fresh base) ↔ Q base) (scope : Scope) :
    (∀ name ∈ (scope.takeAll bases).1, P name) ↔ ∀ base ∈ bases, Q base := by
  induction bases generalizing scope with
  | nil => simp [takeAll]
  | cons base bases ih =>
    obtain ⟨hbase, hbases⟩ := List.forall_mem_cons.mp h
    simp only [takeAll, List.forall_mem_cons, ih hbases]
    exact and_congr_left fun _ => hbase scope

/-! ## Two scopes -/

/-- Only candidates matter for the choice of a name. -/
theorem fresh_congr {scope scope' : Scope} {base : String}
    (h : ∀ n, candidate base n ∈ scope.taken ↔ candidate base n ∈ scope'.taken) :
    scope.fresh base = scope'.fresh base := by
  obtain ⟨m, -, hm, hbefore⟩ := scope.exists_fresh_eq base
  obtain ⟨n, -, hn, hbefore'⟩ := scope'.exists_fresh_eq base
  have hfree : candidate base m ∉ scope'.taken := by
    rw [← h, ← hm]
    exact scope.fresh_notMem base
  have hfree' : candidate base n ∉ scope.taken := by
    rw [h, ← hn]
    exact scope'.fresh_notMem base
  -- neither is the earlier one, as all candidates before it are taken
  have hle : ¬ m < n := fun hlt => hfree (hbefore' m hlt)
  have hge : ¬ n < m := fun hlt => hfree' (hbefore n hlt)
  rw [hm, hn, show m = n by omega]

/-- Of the names with a property, the same are in use in both scopes. -/
def AgreeOn (P : String → Prop) (scope scope' : Scope) : Prop :=
  ∀ name, P name → (name ∈ scope.taken ↔ name ∈ scope'.taken)

section AgreeOn

variable {P : String → Prop} {scope scope' : Scope}

theorem AgreeOn.take {base : String} (h : AgreeOn P scope scope')
    (hbase : ∀ n, P (candidate base n) ↔ P base) :
    AgreeOn P (scope.take base).2 (scope'.take base).2 := by
  intro name hname
  rw [taken_take, taken_take, List.mem_cons, List.mem_cons, h name hname]
  by_cases hP : P base
  · rw [fresh_congr fun n => h _ ((hbase n).mpr hP)]
  · -- the new names lack the property
    have hne : ∀ scope : Scope, name ≠ scope.fresh base := by
      rintro scope rfl
      obtain ⟨n, -, hn, -⟩ := scope.exists_fresh_eq base
      exact hP ((hbase n).mp (hn ▸ hname))
    simp only [hne, false_or]

theorem AgreeOn.takeAll {bases : List String} (h : AgreeOn P scope scope')
    (hbases : ∀ base ∈ bases, ∀ n, P (candidate base n) ↔ P base) :
    AgreeOn P (scope.takeAll bases).2 (scope'.takeAll bases).2 := by
  induction bases generalizing scope scope' with
  | nil => exact h
  | cons base bases ih =>
    obtain ⟨hbase, hbases⟩ := List.forall_mem_cons.mp hbases
    exact ih (h.take hbase) hbases

/-- Scopes that agree give the same names, if these have the property. -/
theorem AgreeOn.takeAll_eq {bases : List String} (h : AgreeOn P scope scope')
    (hbases : ∀ base ∈ bases, ∀ n, P (candidate base n)) :
    (scope.takeAll bases).1 = (scope'.takeAll bases).1 := by
  induction bases generalizing scope scope' with
  | nil => rfl
  | cons base bases ih =>
    obtain ⟨hbase, hbases⟩ := List.forall_mem_cons.mp hbases
    have htake : AgreeOn P (scope.take base).2 (scope'.take base).2 :=
      h.take fun n => iff_of_true (hbase n) (hbase 0)
    have hfresh : scope.fresh base = scope'.fresh base := fresh_congr fun n => h _ (hbase n)
    exact congrArg₂ List.cons hfresh (ih htake hbases)

/-- Names without the property may be taken in one scope alone. -/
theorem agreeOn_takeAll (scope : Scope) {bases : List String}
    (hbases : ∀ base ∈ bases, ∀ n, ¬ P (candidate base n)) :
    AgreeOn P scope (scope.takeAll bases).2 := by
  induction bases generalizing scope with
  | nil => exact fun name _ => Iff.rfl
  | cons base bases ih =>
    obtain ⟨hbase, hbases⟩ := List.forall_mem_cons.mp hbases
    intro name hname
    have hne : name ≠ scope.fresh base := by
      rintro rfl
      obtain ⟨n, -, hn, -⟩ := scope.exists_fresh_eq base
      exact hbase n (hn ▸ hname)
    rw [Scope.takeAll, ← ih _ hbases name hname, taken_take, List.mem_cons, or_iff_right hne]

end AgreeOn

/-! ## Other arrangements -/

/-- Where no name is wanted, none is taken. -/
theorem takeEach_eq (scope : Scope) (bases : List (Option String)) :
    ((scope.takeEach bases).1.reduceOption, (scope.takeEach bases).2) =
      scope.takeAll bases.reduceOption := by
  induction bases generalizing scope with
  | nil => rfl
  | cons base? bases ih =>
    cases base? with
    | none => simpa [takeEach] using ih scope
    | some base =>
      have ih' := ih (scope.take base).2
      simp only [List.reduceOption_cons_of_some, takeAll, ← ih', takeEach]

theorem takeRows_eq (scope : Scope) (rows : List (List (Option String))) :
    ((scope.takeRows rows).1.flatten, (scope.takeRows rows).2) = scope.takeEach rows.flatten := by
  have happend : ∀ (scope : Scope) (xs ys : List (Option String)), scope.takeEach (xs ++ ys) =
      ((scope.takeEach xs).1 ++ ((scope.takeEach xs).2.takeEach ys).1,
        ((scope.takeEach xs).2.takeEach ys).2) := by
    intro scope xs ys
    induction xs generalizing scope with
    | nil => rfl
    | cons x xs ih =>
      cases x with
      | none => simp only [List.cons_append, takeEach, ih]
      | some base => simp only [List.cons_append, takeEach, ih]
  induction rows generalizing scope with
  | nil => rfl
  | cons row rows ih => simp only [takeRows, List.flatten_cons, happend, ← ih]

/-- Names in rows are taken like names in one list. -/
theorem reduceOption_takeRows (scope : Scope) (rows : List (List (Option String))) :
    (scope.takeRows rows).1.flatten.reduceOption =
      (scope.takeAll rows.flatten.reduceOption).1 := by
  have hrows := congrArg Prod.fst (takeRows_eq scope rows)
  have heach := congrArg Prod.fst (takeEach_eq scope rows.flatten)
  simp only at hrows heach
  rw [hrows, heach]

/-- The names in the rows differ from one another. -/
theorem nodup_takeRows (scope : Scope) (rows : List (List (Option String))) :
    (scope.takeRows rows).1.flatten.reduceOption.Nodup := by
  rw [reduceOption_takeRows]
  exact (nodup_takeAll scope _).1

/-- Each place holds a name exactly if one was wanted there, and the name begins as wanted. -/
theorem forall₂_takeEach (scope : Scope) (bases : List (Option String)) :
    List.Forall₂ (Option.Rel fun base name => base.toList <+: name.toList) bases
      (scope.takeEach bases).1 := by
  induction bases generalizing scope with
  | nil => exact .nil
  | cons base? bases ih =>
    cases base? with
    | none => exact .cons .none (ih scope)
    | some base => exact .cons (.some (scope.prefix_fresh base)) (ih (scope.take base).2)

theorem forall₂_takeRows (scope : Scope) (rows : List (List (Option String))) :
    List.Forall₂ (List.Forall₂ (Option.Rel fun base name => base.toList <+: name.toList)) rows
      (scope.takeRows rows).1 := by
  induction rows generalizing scope with
  | nil => exact .nil
  | cons row rows ih => exact .cons (scope.forall₂_takeEach row) (ih (scope.takeEach row).2)

end AlgebraicData.Scope
