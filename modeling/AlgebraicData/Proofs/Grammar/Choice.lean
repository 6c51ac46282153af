import AlgebraicData.Proofs.Grammar.Rule

/-!
# Which failure a choice reports

A choice runs through its alternatives with the failure that got furthest so far in hand.  That this
is the last of the failures with the shortest rest, whatever the number of alternatives and of ties,
comes from one law: to take the further of two failures is associative (`Failure.furthest_assoc`).
So is `either`, and a choice may be cut into two choices anywhere (`choice_append`).
-/

namespace AlgebraicData

namespace Failure

variable {first second : Failure}

theorem furthest_of_lt
    (h : Text.byteLength first.remaining < Text.byteLength second.remaining) :
    first.furthest second = first :=
  if_pos h

theorem furthest_of_le
    (h : Text.byteLength second.remaining ≤ Text.byteLength first.remaining) :
    first.furthest second = second :=
  if_neg (Nat.not_lt.mpr h)

theorem furthest_assoc (first second third : Failure) :
    (first.furthest second).furthest third = first.furthest (second.furthest third) := by
  rcases Nat.lt_or_ge (Text.byteLength first.remaining) (Text.byteLength second.remaining)
    with hlt | hge
  · rw [furthest_of_lt hlt]
    rcases Nat.lt_or_ge (Text.byteLength second.remaining) (Text.byteLength third.remaining)
      with hlt' | hge'
    · rw [furthest_of_lt hlt', furthest_of_lt hlt, furthest_of_lt (hlt.trans hlt')]
    · rw [furthest_of_le hge']
  · rw [furthest_of_le hge]
    rcases Nat.lt_or_ge (Text.byteLength second.remaining) (Text.byteLength third.remaining)
      with hlt' | hge'
    · rw [furthest_of_lt hlt', furthest_of_le hge]
    · rw [furthest_of_le hge', furthest_of_le (hge'.trans hge)]

end Failure

namespace Rule

variable {α : Type}

/-! ## Cutting a choice -/

theorem either_assoc (first second third : Rule α) :
    either (either first second) third = either first (either second third) := by
  funext text
  simp only [either]
  cases first text with
  | ok success => rfl
  | error f =>
    cases second text with
    | ok success => rfl
    | error g =>
      cases third text with
      | ok success => rfl
      | error h => exact congrArg Except.error (Failure.furthest_assoc f g h)

instance : Std.Associative (either (α := α)) :=
  ⟨either_assoc⟩

theorem choice_cons {rules : List (Rule α)} (hne : rules ≠ []) (rule : Rule α) :
    choice (rule :: rules) = either rule (choice rules) := by
  obtain ⟨next, rest, rfl⟩ := List.exists_cons_of_ne_nil hne
  exact List.foldl_assoc

/-- A choice of choices is one choice. -/
theorem choice_append {front back : List (Rule α)} (hfront : front ≠ []) (hback : back ≠ []) :
    choice (front ++ back) = either (choice front) (choice back) := by
  induction front with
  | nil => exact absurd rfl hfront
  | cons rule front ih =>
    rw [List.cons_append, choice_cons (List.append_ne_nil_of_right_ne_nil _ hback)]
    by_cases hmore : front = []
    · subst hmore
      rfl
    · rw [ih hmore, choice_cons hmore, either_assoc]

/-! ## Success and failure -/

/-- The first of the rules that reads anything off the text reads the value and leaves the rest. -/
def FirstReads (rules : List (Rule α)) (text : List Char) (value : α) (rest : List Char) : Prop :=
  ∃ before rule after, rules = before ++ rule :: after ∧
    (∀ earlier ∈ before, Refuses earlier text) ∧ Reads rule text value rest

/-- All the rules fail, and the failure is that of the last rule among those that got furthest: the
rules before it left as many bytes or more, and those after it left more. -/
def LastFurthest (rules : List (Rule α)) (text : List Char) (failure : Failure) : Prop :=
  ∃ before rule after, rules = before ++ rule :: after ∧ rule text = .error failure ∧
    (∀ earlier ∈ before, ∃ other, earlier text = .error other ∧
      Text.byteLength failure.remaining ≤ Text.byteLength other.remaining) ∧
    ∀ later ∈ after, ∃ other, later text = .error other ∧
      Text.byteLength failure.remaining < Text.byteLength other.remaining

/-- The place of a rule in a list is the first, or a place among the others. -/
theorem exists_place_cons_iff {rule : Rule α} {rules : List (Rule α)}
    {P : List (Rule α) → Rule α → List (Rule α) → Prop} :
    (∃ before found after, rule :: rules = before ++ found :: after ∧ P before found after) ↔
      P [] rule rules ∨
        ∃ before found after, rules = before ++ found :: after ∧ P (rule :: before) found after := by
  constructor
  · rintro ⟨before, found, after, hrules, hP⟩
    cases before with
    | nil =>
      obtain ⟨rfl, rfl⟩ := List.cons.inj hrules
      exact .inl hP
    | cons first before =>
      obtain ⟨rfl, hrest⟩ := List.cons.inj hrules
      exact .inr ⟨before, found, after, hrest, hP⟩
  · rintro (hP | ⟨before, found, after, rfl, hP⟩)
    · exact ⟨[], rule, rules, rfl, hP⟩
    · exact ⟨rule :: before, found, after, rfl, hP⟩

section Cons

variable {rule : Rule α} {rules : List (Rule α)} {text : List Char}

theorem firstReads_cons_iff {value : α} {rest : List Char} :
    FirstReads (rule :: rules) text value rest ↔
      Reads rule text value rest ∨ Refuses rule text ∧ FirstReads rules text value rest := by
  unfold FirstReads
  rw [exists_place_cons_iff]
  refine or_congr (and_iff_right (List.forall_mem_nil _)) ?_
  constructor
  · rintro ⟨before, found, after, hrules, hbefore, hfound⟩
    obtain ⟨hrule, hbefore⟩ := List.forall_mem_cons.mp hbefore
    exact ⟨hrule, before, found, after, hrules, hbefore, hfound⟩
  · rintro ⟨hrule, before, found, after, hrules, hbefore, hfound⟩
    exact ⟨before, found, after, hrules, List.forall_mem_cons.mpr ⟨hrule, hbefore⟩, hfound⟩

/-- The last failure that got furthest is that of the first rule if all others left more, and else
that of the others. -/
theorem lastFurthest_cons_iff {failure : Failure} :
    LastFurthest (rule :: rules) text failure ↔
      (rule text = .error failure ∧ ∀ later ∈ rules, ∃ other, later text = .error other ∧
        Text.byteLength failure.remaining < Text.byteLength other.remaining) ∨
      ((∃ other, rule text = .error other ∧
        Text.byteLength failure.remaining ≤ Text.byteLength other.remaining) ∧
        LastFurthest rules text failure) := by
  unfold LastFurthest
  rw [exists_place_cons_iff]
  refine or_congr (and_congr_right fun _ => and_iff_right (List.forall_mem_nil _)) ?_
  constructor
  · rintro ⟨before, found, after, hrules, hfound, hbefore, hafter⟩
    obtain ⟨hrule, hbefore⟩ := List.forall_mem_cons.mp hbefore
    exact ⟨hrule, before, found, after, hrules, hfound, hbefore, hafter⟩
  · rintro ⟨hrule, before, found, after, hrules, hfound, hbefore, hafter⟩
    exact ⟨before, found, after, hrules, hfound, List.forall_mem_cons.mpr ⟨hrule, hbefore⟩, hafter⟩

end Cons

/-- Every rule fails, and none got further than the last that got furthest. -/
theorem LastFurthest.forall_mem {rules : List (Rule α)} {text : List Char} {failure : Failure}
    (h : LastFurthest rules text failure) :
    ∀ rule ∈ rules, ∃ other, rule text = .error other ∧
      Text.byteLength failure.remaining ≤ Text.byteLength other.remaining := by
  obtain ⟨before, found, after, rfl, hfound, hbefore, hafter⟩ := h
  refine List.forall_mem_append.mpr ⟨hbefore, List.forall_mem_cons.mpr
    ⟨⟨failure, hfound, le_rfl⟩, fun later hlater => ?_⟩⟩
  obtain ⟨other, hother, hlt⟩ := hafter later hlater
  exact ⟨other, hother, hlt.le⟩

theorem LastFurthest.exists_mem {rules : List (Rule α)} {text : List Char} {failure : Failure}
    (h : LastFurthest rules text failure) : ∃ rule ∈ rules, rule text = .error failure := by
  obtain ⟨before, rule, after, rfl, hrule, -⟩ := h
  exact ⟨rule, by simp, hrule⟩

theorem reads_choice {rules : List (Rule α)} (hne : rules ≠ []) {text rest : List Char}
    {value : α} :
    Reads (choice rules) text value rest ↔ FirstReads rules text value rest := by
  induction rules with
  | nil => exact absurd rfl hne
  | cons rule rules ih =>
    rw [firstReads_cons_iff]
    by_cases hmore : rules = []
    · subst hmore
      have hnone : ¬ FirstReads ([] : List (Rule α)) text value rest := by simp [FirstReads]
      simp only [hnone, and_false, or_false]
      rfl
    · rw [choice_cons hmore, reads_either, ih hmore]

theorem exists_choice_eq_error {rules : List (Rule α)} (hne : rules ≠ []) {text : List Char}
    (h : ∀ rule ∈ rules, Refuses rule text) : ∃ failure, choice rules text = .error failure := by
  refine Refuses.exists_error fun value rest hr => ?_
  obtain ⟨before, rule, after, rfl, -, hrule⟩ := (reads_choice hne).mp hr
  exact h rule (by simp) value rest hrule

theorem choice_eq_error_iff {rules : List (Rule α)} (hne : rules ≠ []) {text : List Char}
    {failure : Failure} :
    choice rules text = .error failure ↔ LastFurthest rules text failure := by
  induction rules generalizing failure with
  | nil => exact absurd rfl hne
  | cons rule rules ih =>
    rw [lastFurthest_cons_iff]
    by_cases hmore : rules = []
    · subst hmore
      have hnone : ¬ LastFurthest ([] : List (Rule α)) text failure := by simp [LastFurthest]
      simp only [hnone, and_false, or_false, List.not_mem_nil, false_implies, implies_true, and_true]
      rfl
    · rw [choice_cons hmore, either_eq_error_iff]
      simp only [ih hmore]
      constructor
      · rintro ⟨f, g, hf, hg, rfl⟩
        rcases Nat.lt_or_ge (Text.byteLength f.remaining) (Text.byteLength g.remaining)
          with hlt | hge
        · rw [Failure.furthest_of_lt hlt]
          refine .inl ⟨hf, fun later hlater => ?_⟩
          obtain ⟨other, hother, hle⟩ := hg.forall_mem later hlater
          exact ⟨other, hother, hlt.trans_le hle⟩
        · rw [Failure.furthest_of_le hge]
          exact .inr ⟨⟨f, hf, hge⟩, hg⟩
      · rintro (⟨hrule, hlater⟩ | ⟨⟨f, hf, hle⟩, hg⟩)
        · -- the others fail too, and the one of them that got furthest with more left
          obtain ⟨g, hg⟩ : ∃ g, choice rules text = .error g := by
            refine exists_choice_eq_error hmore fun later hmem => ?_
            obtain ⟨other, hother, -⟩ := hlater later hmem
            exact refuses_of_error hother
          have hlast := (ih hmore).mp hg
          obtain ⟨found, hmem, hfound⟩ := hlast.exists_mem
          obtain ⟨other, hother, hlt⟩ := hlater found hmem
          obtain rfl : other = g := Except.error.inj (hother.symm.trans hfound)
          exact ⟨failure, other, hrule, hlast, (Failure.furthest_of_lt hlt).symm⟩
        · exact ⟨f, failure, hf, hg, (Failure.furthest_of_le hle).symm⟩

/-- What a choice between any number of rules does, one at least.

It reads what the first rule reads that succeeds.  It fails exactly where all rules fail, with the
failure of the last rule among those that got furthest, as it is.  Cutting the rules into two choices
and taking the further of their two failures gives the same failure. -/
theorem choice_reports_furthest {rules : List (Rule α)} (hne : rules ≠ []) (text : List Char) :
    (∀ value rest, Reads (choice rules) text value rest ↔ FirstReads rules text value rest) ∧
    (∀ failure, choice rules text = .error failure ↔ LastFurthest rules text failure) ∧
    ∀ front back, rules = front ++ back → front ≠ [] → back ≠ [] → ∀ failure,
      choice rules text = .error failure ↔
        ∃ f g, choice front text = .error f ∧ choice back text = .error g ∧
          failure = f.furthest g := by
  refine ⟨fun value rest => reads_choice hne, fun failure => choice_eq_error_iff hne, ?_⟩
  rintro front back rfl hfront hback failure
  rw [choice_append hfront hback, either_eq_error_iff]

/-- Three rules of which the first and the last fail behind `a`. -/
def tiedRules : List (Rule Unit) :=
  [do exactly "a"; exactly "x", exactly "x", do exactly "a"; exactly "y"]

theorem tiedRules_report_last :
    tiedRules ≠ [] ∧ choice tiedRules ['a', 'é', 'b'] = .error (.mismatch "y" ['é', 'b']) := by
  have hne : tiedRules ≠ [] := by simp [tiedRules]
  refine ⟨hne, ((choice_reports_furthest hne _).2.1 _).mpr ?_⟩
  refine ⟨[_, _], _, [], rfl, rfl, ?_, List.forall_mem_nil _⟩
  refine List.forall_mem_cons.mpr ⟨⟨_, rfl, by decide⟩, List.forall_mem_singleton.mpr ?_⟩
  exact ⟨_, rfl, by decide⟩

end Rule

end AlgebraicData
