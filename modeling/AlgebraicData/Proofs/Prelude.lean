import Mathlib

/-!
# Results, lists and numerals

Facts about `Except`, `List` and the digits of a number, in which nothing of the program occurs.
-/

namespace Except

variable {ε ε' α β : Type}

theorem bind_eq_ok_iff {x : Except ε α} {f : α → Except ε β} {b : β} :
    x >>= f = .ok b ↔ ∃ a, x = .ok a ∧ f a = .ok b := by
  cases x <;> simp [bind, Except.bind]

theorem bind_eq_error_iff {x : Except ε α} {f : α → Except ε β} {error : ε} :
    x >>= f = .error error ↔ x = .error error ∨ ∃ a, x = .ok a ∧ f a = .error error := by
  cases x <;> simp [bind, Except.bind]

theorem mapError_eq_ok_iff {x : Except ε α} {f : ε → ε'} {a : α} :
    x.mapError f = .ok a ↔ x = .ok a := by
  cases x <;> simp [Except.mapError]

theorem mapError_eq_error_iff {x : Except ε α} {f : ε → ε'} {error' : ε'} :
    x.mapError f = .error error' ↔ ∃ error, x = .error error ∧ f error = error' := by
  cases x <;> simp [Except.mapError]

theorem mapError_congr {x : Except ε α} {f g : ε → ε'}
    (h : ∀ error, x = .error error → f error = g error) : x.mapError f = x.mapError g := by
  cases x with
  | ok value => rfl
  | error error => exact congrArg Except.error (h error rfl)

/-- An answer that is either a value for accepted parts or an error that applies to them is decided
by the parts, if at most one error applies and none to accepted parts. -/
theorem decided_of_cases {answer : Except ε α} {accepted : Prop} {applies : ε → Prop}
    (h : (accepted ∧ ∃ value, answer = .ok value) ∨ ∃ error, answer = .error error ∧ applies error)
    (hnot : ∀ error, applies error → ¬ accepted)
    (hunique : ∀ error error', applies error → applies error' → error = error') :
    ((∃ value, answer = .ok value) ↔ accepted) ∧
      ∀ error, answer = .error error ↔ applies error := by
  rcases h with ⟨haccepted, value, rfl⟩ | ⟨error, rfl, happlies⟩
  · refine ⟨⟨fun _ => haccepted, fun _ => ⟨value, rfl⟩⟩, fun error => ⟨fun h => ?_, fun h => ?_⟩⟩
    · cases h
    · exact absurd haccepted (hnot error h)
  · refine ⟨⟨fun h => ?_, fun h => ?_⟩, fun error' => ⟨fun h => ?_, fun h => ?_⟩⟩
    · obtain ⟨value, hvalue⟩ := h
      cases hvalue
    · exact absurd h (hnot error happlies)
    · obtain rfl := Except.error.inj h
      exact happlies
    · rw [hunique error error' happlies h]

/-! ## Items one after another -/

variable {f : α → Except ε β} {items : List α}

/-- All items succeed, each with its own value. -/
theorem mapM_eq_ok_iff {values : List β} :
    items.mapM f = .ok values ↔
      List.Forall₂ (fun item value => f item = .ok value) items values := by
  induction items generalizing values with
  | nil =>
    rw [List.forall₂_nil_left_iff, List.mapM_nil]
    exact ⟨fun h => (Except.ok.inj h).symm, fun h => congrArg _ h.symm⟩
  | cons item items ih =>
    simp only [List.mapM_cons, bind_eq_ok_iff, ih]
    constructor
    · rintro ⟨value, hvalue, more, hmore, hpure⟩
      obtain rfl := Except.ok.inj hpure
      exact .cons hvalue hmore
    · intro h
      obtain ⟨value, more, hvalue, hmore, rfl⟩ := List.forall₂_cons_left_iff.mp h
      exact ⟨value, hvalue, more, hmore, rfl⟩

/-- The first item that fails decides, whatever stands after it. -/
theorem mapM_eq_error_iff {error : ε} :
    items.mapM f = .error error ↔ ∃ before item after, items = before ++ item :: after ∧
      (∀ b ∈ before, ∃ value, f b = .ok value) ∧ f item = .error error := by
  constructor
  · intro h
    induction items with
    | nil => cases h
    | cons item items ih =>
      rw [List.mapM_cons, bind_eq_error_iff] at h
      rcases h with hitem | ⟨value, hvalue, h⟩
      · exact ⟨[], item, items, rfl, List.forall_mem_nil _, hitem⟩
      · rcases bind_eq_error_iff.mp h with hitems | ⟨values, -, hpure⟩
        · obtain ⟨before, item', after, rfl, hbefore, herror⟩ := ih hitems
          exact ⟨item :: before, item', after, rfl,
            List.forall_mem_cons.mpr ⟨⟨value, hvalue⟩, hbefore⟩, herror⟩
        · cases hpure
  · rintro ⟨before, item, after, rfl, hbefore, herror⟩
    induction before with
    | nil =>
      rw [List.nil_append, List.mapM_cons, herror]
      rfl
    | cons first before ih =>
      obtain ⟨⟨value, hfirst⟩, hrest⟩ := List.forall_mem_cons.mp hbefore
      rw [List.cons_append, List.mapM_cons, hfirst, ih hrest]
      rfl

theorem mapM_mapError (g : ε → ε') :
    items.mapM (fun item => (f item).mapError g) = (items.mapM f).mapError g := by
  induction items with
  | nil => rfl
  | cons item items ih =>
    rw [List.mapM_cons, List.mapM_cons, ih]
    cases f item with
    | error error => rfl
    | ok value => cases items.mapM f <;> rfl

end Except

namespace List

variable {α β γ : Type}

theorem mapM_eq_some_of_forall₂ {f : α → Option β} {as : List α} {bs : List β}
    (h : Forall₂ (fun a b => f a = some b) as bs) : as.mapM f = some bs := by
  induction h with
  | nil => rfl
  | cons hfirst _ ih => simp [mapM_cons, hfirst, ih]

/-! ## Two lists in step -/

section Forall₂

variable {R : α → β → Prop} {as : List α} {bs : List β}

theorem Forall₂.exists_mem_zip (h : Forall₂ R as bs) {a : α} (ha : a ∈ as) :
    ∃ b, (a, b) ∈ as.zip bs ∧ R a b := by
  induction h with
  | nil => cases ha
  | cons hr _ ih =>
    rcases mem_cons.mp ha with rfl | ha
    · exact ⟨_, mem_cons_self, hr⟩
    · obtain ⟨b, hb, hr⟩ := ih ha
      exact ⟨b, mem_cons_of_mem _ hb, hr⟩

theorem Forall₂.forall_mem_right (h : Forall₂ R as bs) {P : β → Prop}
    (hP : ∀ a b, R a b → P b) : ∀ b ∈ bs, P b := by
  induction h with
  | nil => exact forall_mem_nil _
  | cons hr _ ih => exact forall_mem_cons.mpr ⟨hP _ _ hr, ih⟩

theorem Forall₂.flatMap_zip_right {f : α × β → List γ} {g : β → List γ}
    (h : Forall₂ R as bs) (hfg : ∀ a b, R a b → f (a, b) = g b) :
    (as.zip bs).flatMap f = bs.flatMap g := by
  induction h with
  | nil => rfl
  | cons hr _ ih => rw [zip_cons_cons, flatMap_cons, flatMap_cons, hfg _ _ hr, ih]

theorem Forall₂.flatMap_zip_left {f : α × β → List γ} {g : α → List γ}
    (h : Forall₂ R as bs) (hfg : ∀ a b, R a b → f (a, b) = g a) :
    (as.zip bs).flatMap f = as.flatMap g := by
  induction h with
  | nil => rfl
  | cons hr _ ih => rw [zip_cons_cons, flatMap_cons, flatMap_cons, hfg _ _ hr, ih]

end Forall₂

theorem forall₂_zipWith_right {R : γ → γ → Prop} {f : α → β → γ}
    (h : ∀ a b b', R (f a b) (f a b')) {as : List α} {bs bs' : List β}
    (hlength : bs.length = bs'.length) : Forall₂ R (as.zipWith f bs) (as.zipWith f bs') := by
  induction as generalizing bs bs' with
  | nil => exact .nil
  | cons a as ih =>
    cases bs with
    | nil =>
      obtain rfl := length_eq_zero_iff.mp hlength.symm
      exact .nil
    | cons b bs =>
      obtain ⟨b', bs', rfl⟩ := exists_cons_of_length_eq_add_one hlength.symm
      exact .cons (h a b b') (ih (Nat.succ.inj hlength))

/-! ## Positions -/

theorem forall_mem_zipIdx_iff {Q : α → Prop} {items : List α} :
    (∀ x ∈ items.zipIdx, Q x.1) ↔ ∀ item ∈ items, Q item := by
  have hmap := forall_mem_map (f := Prod.fst) (l := items.zipIdx) (P := Q)
  rw [zipIdx_map_fst] at hmap
  exact hmap.symm

theorem zipIdx_zip (as : List α) (bs : List β) (k : Nat) :
    (as.zip bs).zipIdx k = ((as.zipIdx k).zip bs).map fun x => ((x.1.1, x.2), x.1.2) := by
  induction as generalizing bs k with
  | nil => rfl
  | cons a as ih =>
    cases bs with
    | nil => rfl
    | cons b bs => simp [zipIdx_cons, ih]

/-! ## Tables -/

theorem lookup_cons_of_ne [BEq α] [LawfulBEq α] {key other : α} (hne : key ≠ other) (value : β)
    (entries : List (α × β)) :
    ((other, value) :: entries).lookup key = entries.lookup key := by
  rw [lookup_cons, beq_false_of_ne hne]

/-- Where keys differ, each has its own entry. -/
theorem lookup_eq_some_of_mem [BEq α] [LawfulBEq α] {entries : List (α × β)}
    (hnodup : (entries.map (·.1)).Nodup) {key : α} {value : β} (hmem : (key, value) ∈ entries) :
    entries.lookup key = some value := by
  induction entries with
  | nil => cases hmem
  | cons entry entries ih =>
    obtain ⟨hnotMem, hnodup⟩ := nodup_cons.mp hnodup
    rcases mem_cons.mp hmem with rfl | hmem
    · exact lookup_cons_self
    · have hne : key ≠ entry.1 := fun heq => hnotMem (mem_map.mpr ⟨_, hmem, heq⟩)
      rw [lookup_cons_of_ne hne]
      exact ih hnodup hmem

/-- An entry that is put in place of all with its key hides none of the others. -/
theorem lookup_replace [BEq α] [LawfulBEq α] [DecidableEq α] (entries : List (α × β)) (key : α)
    (value : β) (key' : α) :
    (entries.filter (·.1 ≠ key) ++ [(key, value)]).lookup key' =
      if key' = key then some value else entries.lookup key' := by
  by_cases heq : key' = key
  · subst heq
    rw [if_pos rfl]
    induction entries with
    | nil => exact lookup_cons_self
    | cons entry entries ih =>
      by_cases hentry : entry.1 = key'
      · rwa [filter_cons_of_neg (by simpa using hentry)]
      · rw [filter_cons_of_pos (by simpa using hentry), cons_append,
          lookup_cons_of_ne (Ne.symm hentry), ih]
  · rw [if_neg heq]
    induction entries with
    | nil => exact lookup_cons_of_ne heq _ _
    | cons entry entries ih =>
      by_cases hentry : entry.1 = key
      · rw [filter_cons_of_neg (by simpa using hentry), ih,
          lookup_cons_of_ne (fun h => heq (h.trans hentry))]
      · rw [filter_cons_of_pos (by simpa using hentry), cons_append, lookup_cons, lookup_cons, ih]

/-! ## Fronts and separators -/

theorem IsPrefix.head?_eq_some {as bs : List α} {a : α} (h : as <+: bs)
    (hhead : as.head? = some a) : bs.head? = some a := by
  obtain ⟨more, rfl⟩ := h
  rw [head?_append, hhead, Option.some_or]

/-- A list is cut in one way in front of the first place of an item. -/
theorem eq_of_append_cons_eq {a : α} {front front' rest rest' : List α} (h : a ∉ front)
    (h' : a ∉ front') (heq : front ++ a :: rest = front' ++ a :: rest') :
    front = front' ∧ rest = rest' := by
  induction front generalizing front' with
  | nil =>
    cases front' with
    | nil => exact ⟨rfl, (cons.inj heq).2⟩
    | cons b front' => exact absurd ((cons.inj heq).1 ▸ mem_cons_self) h'
  | cons b front ih =>
    cases front' with
    | nil => exact absurd ((cons.inj heq).1 ▸ mem_cons_self) h
    | cons b' front' =>
      obtain ⟨rfl, htail⟩ := cons.inj heq
      obtain ⟨rfl, hrest⟩ := ih (not_mem_of_not_mem_cons h) (not_mem_of_not_mem_cons h') htail
      exact ⟨rfl, hrest⟩

theorem intercalate_append_cons (separator front first : List α) (rest : List (List α)) :
    separator.intercalate ((front ++ first) :: rest) =
      front ++ separator.intercalate (first :: rest) := by
  cases rest with
  | nil => rw [intercalate_singleton, intercalate_singleton]
  | cons next rest =>
    rw [intercalate_cons_cons, intercalate_cons_cons, append_assoc, append_assoc, append_assoc]

end List

namespace Nat

theorem isDigit_of_mem_repr {n : Nat} : ∀ c ∈ n.repr.toList, c.isDigit = true := by
  intro c hc
  rw [toList_repr] at hc
  exact isDigit_of_mem_toDigits (by decide) (by decide) hc

theorem exists_repr_eq_cons (n : Nat) : ∃ digit digits, n.repr.toList = digit :: digits := by
  refine List.exists_cons_of_ne_nil fun hnil => ?_
  exact repr_ne_empty (String.toList_eq_nil_iff.mp hnil)

end Nat
