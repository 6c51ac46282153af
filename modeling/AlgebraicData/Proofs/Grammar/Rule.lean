import Mathlib
import AlgebraicData.Grammar.Rule

/-!
# What rules read

A rule is described by the texts it succeeds on: `Reads rule text value rest` says that it reads
`value` off the front of `text` and leaves `rest`.  Every way of combining rules has a law that says
what the combination reads in terms of what its parts read, so that a proof about the grammar never
opens a combinator:

* sequence, choice, optional rules and labels, each by an equivalence (`reads_bind`, …);
* repetition, by the inductive relation `Repeats`, once each round makes the text shorter;
* recursion, by an induction principle (`reads_recursive_of`) and by the equation that drops the
  test for a shorter text (`recursive_eq`).
-/

namespace AlgebraicData

namespace Rule

variable {α β : Type}

/-- The rule reads the value off the front of the text and leaves the rest. -/
def Reads (rule : Rule α) (text : List Char) (value : α) (rest : List Char) : Prop :=
  rule text = .ok (value, rest)

/-- The rule reads nothing off the front of the text. -/
def Refuses (rule : Rule α) (text : List Char) : Prop :=
  ∀ value rest, ¬ Reads rule text value rest

/-- What the rule leaves is shorter than what it was given. -/
def Shrinks (rule : Rule α) : Prop :=
  ∀ ⦃text value rest⦄, Reads rule text value rest → rest.length < text.length

theorem Reads.unique {rule : Rule α} {text rest rest' : List Char} {value value' : α}
    (h : Reads rule text value rest) (h' : Reads rule text value' rest') :
    value = value' ∧ rest = rest' := by
  have heq : (value, rest) = (value', rest') := Except.ok.inj (h.symm.trans h')
  exact Prod.mk.inj heq

theorem reads_or_refuses (rule : Rule α) (text : List Char) :
    (∃ value rest, Reads rule text value rest) ∨ Refuses rule text := by
  by_cases h : ∃ value rest, Reads rule text value rest
  · exact .inl h
  · exact .inr fun value rest hr => h ⟨value, rest, hr⟩

theorem Refuses.exists_error {rule : Rule α} {text : List Char} (h : Refuses rule text) :
    ∃ failure, rule text = .error failure := by
  cases hr : rule text with
  | error failure => exact ⟨failure, rfl⟩
  | ok success => exact absurd hr (h success.1 success.2)

theorem refuses_of_error {rule : Rule α} {text : List Char} {failure : Failure}
    (h : rule text = .error failure) : Refuses rule text := by
  intro value rest hr
  rw [show rule text = .ok (value, rest) from hr] at h
  cases h

/-! ## Sequence and labels -/

theorem reads_pure {value value' : α} {text rest : List Char} :
    Reads (pure value) text value' rest ↔ value' = value ∧ rest = text := by
  constructor
  · intro h
    have heq : (value, text) = (value', rest) := Except.ok.inj h
    exact ⟨(Prod.mk.inj heq).1.symm, (Prod.mk.inj heq).2.symm⟩
  · rintro ⟨rfl, rfl⟩
    rfl

theorem bind_apply (rule : Rule α) (next : α → Rule β) (text : List Char) :
    (rule >>= next) text =
      match rule text with
      | .ok (value, rest) => next value rest
      | .error failure => .error failure := by
  change Except.bind (rule text) (fun success => next success.1 success.2) = _
  cases rule text <;> rfl

theorem reads_bind {rule : Rule α} {next : α → Rule β} {text rest : List Char} {value : β} :
    Reads (rule >>= next) text value rest ↔
      ∃ first mid, Reads rule text first mid ∧ Reads (next first) mid value rest := by
  unfold Reads
  rw [bind_apply]
  constructor
  · intro h
    cases hr : rule text with
    | error failure => simp [hr] at h
    | ok success => exact ⟨success.1, success.2, rfl, by simpa [hr] using h⟩
  · rintro ⟨first, mid, hr, hn⟩
    simp [hr, hn]

theorem reads_expected {label : String} {rule : Rule α} {text rest : List Char} {value : α} :
    Reads (expected label rule) text value rest ↔ Reads rule text value rest := by
  unfold Reads expected
  cases rule text <;> simp [Except.mapError]

/-! ## Choice -/

theorem reads_either {first second : Rule α} {text rest : List Char} {value : α} :
    Reads (either first second) text value rest ↔
      Reads first text value rest ∨ Refuses first text ∧ Reads second text value rest := by
  rcases reads_or_refuses first text with ⟨value', rest', hf⟩ | hf
  · have heq : either first second text = .ok (value', rest') := by
      unfold Reads at hf
      simp [either, hf]
    have hno : ¬ Refuses first text := fun hr => hr value' rest' hf
    simp only [hno, false_and, or_false, Reads, heq]
    rw [show first text = .ok (value', rest') from hf]
  · obtain ⟨failure, herr⟩ := hf.exists_error
    have hiff : Reads (either first second) text value rest ↔ Reads second text value rest := by
      unfold Reads
      simp only [either, herr]
      cases second text <;> simp [Except.mapError]
    have hno : ¬ Reads first text value rest := hf value rest
    simp only [hiff, hf, hno, true_and, false_or]

theorem either_eq_error_iff {first second : Rule α} {text : List Char} {failure : Failure} :
    either first second text = .error failure ↔
      ∃ f g, first text = .error f ∧ second text = .error g ∧ failure = f.furthest g := by
  unfold either
  cases first text with
  | ok success => simp
  | error f => cases second text <;> simp [Except.mapError, eq_comm]

theorem reads_choice_pair {first second : Rule α} {text rest : List Char} {value : α} :
    Reads (choice [first, second]) text value rest ↔
      Reads first text value rest ∨ Refuses first text ∧ Reads second text value rest :=
  reads_either

theorem reads_maybe_some {rule : Rule α} {text rest : List Char} {value : α} :
    Reads (maybe rule) text (some value) rest ↔ Reads rule text value rest := by
  unfold Reads maybe
  cases rule text <;> simp [Prod.ext_iff]

theorem reads_maybe_none {rule : Rule α} {text rest : List Char} :
    Reads (maybe rule) text none rest ↔ Refuses rule text ∧ rest = text := by
  rcases reads_or_refuses rule text with ⟨value, rest', hr⟩ | hr
  · have hno : ¬ Refuses rule text := fun hf => hf value rest' hr
    unfold Reads at hr
    simp [Reads, maybe, hr, hno]
  · obtain ⟨failure, herr⟩ := hr.exists_error
    simp [Reads, maybe, herr, hr, eq_comm]

/-! ## Repetition -/

/-- The rule reads the values one after another, until it refuses the rest. -/
inductive Repeats (rule : Rule α) : List Char → List α → List Char → Prop where
  | stop {text : List Char} : Refuses rule text → Repeats rule text [] text
  | step {text mid rest : List Char} {value : α} {values : List α} :
      Reads rule text value mid → Repeats rule mid values rest →
      Repeats rule text (value :: values) rest

theorem repeats_collect {rule : Rule α} (hs : Shrinks rule) (text : List Char) :
    Repeats rule text (collect rule text).1 (collect rule text).2 := by
  fun_induction collect rule text with
  | case1 text failure herr => exact .stop fun value rest hr => by simp [Reads, herr] at hr
  | case2 text value mid hr _ values rest hc ih =>
    rw [hc] at ih
    exact .step hr ih
  | case3 text value mid hr hlt => exact absurd (hs hr) hlt

theorem Repeats.unique {rule : Rule α} {text rest rest' : List Char} {values values' : List α}
    (h : Repeats rule text values rest) (h' : Repeats rule text values' rest') :
    values = values' ∧ rest = rest' := by
  induction h generalizing values' with
  | stop hf =>
    cases h' with
    | stop => exact ⟨rfl, rfl⟩
    | step hr _ => exact absurd hr (hf _ _)
  | step hr _ ih =>
    cases h' with
    | stop hf => exact absurd hr (hf _ _)
    | step hr' ht' =>
      obtain ⟨rfl, rfl⟩ := hr.unique hr'
      obtain ⟨rfl, rfl⟩ := ih ht'
      exact ⟨rfl, rfl⟩

/-- A repetition ends where its rule refuses to go on. -/
theorem Repeats.refuses {rule : Rule α} {text rest : List Char} {values : List α}
    (h : Repeats rule text values rest) : Refuses rule rest := by
  induction h with
  | stop hf => exact hf
  | step _ _ ih => exact ih

/-- A repetition reads what its rounds read, if no round comes back without having read anything. -/
theorem reads_many {rule : Rule α} (hs : Shrinks rule) {text rest : List Char} {values : List α} :
    Reads (many rule) text values rest ↔ Repeats rule text values rest := by
  have hc := repeats_collect hs text
  constructor
  · intro h
    have heq : collect rule text = (values, rest) := Except.ok.inj h
    rw [heq] at hc
    exact hc
  · intro h
    obtain ⟨hv, hr⟩ := hc.unique h
    exact congrArg Except.ok (Prod.ext hv hr)

/-- A repetition never fails. -/
theorem exists_reads_many (rule : Rule α) (text : List Char) :
    ∃ values rest, Reads (many rule) text values rest :=
  ⟨_, _, rfl⟩

theorem reads_sepBy1 {separator : Rule β} {rule : Rule α}
    (hs : Shrinks (do let _ ← separator; rule)) {text rest : List Char} {values : List α} :
    Reads (sepBy1 separator rule) text values rest ↔
      ∃ first more mid, values = first :: more ∧ Reads rule text first mid ∧
        Repeats (do let _ ← separator; rule) mid more rest := by
  simp only [sepBy1, reads_bind, reads_pure, reads_many hs]
  constructor
  · rintro ⟨first, mid, hf, more, _, hm, rfl, rfl⟩
    exact ⟨first, more, mid, rfl, hf, hm⟩
  · rintro ⟨first, more, mid, rfl, hf, hm⟩
    exact ⟨first, mid, hf, more, rest, hm, rfl, rfl⟩

theorem reads_sepBy {separator : Rule β} {rule : Rule α} {text rest : List Char}
    {values : List α} :
    Reads (sepBy separator rule) text values rest ↔
      Reads (sepBy1 separator rule) text values rest ∨
        Refuses (sepBy1 separator rule) text ∧ values = [] ∧ rest = text := by
  rcases reads_or_refuses (sepBy1 separator rule) text with ⟨values', rest', hr⟩ | hr
  · have hno : ¬ Refuses (sepBy1 separator rule) text := fun hf => hf values' rest' hr
    unfold Reads at hr
    simp [Reads, sepBy, hr, hno]
  · obtain ⟨failure, herr⟩ := hr.exists_error
    have hno : ¬ Reads (sepBy1 separator rule) text values rest := hr values rest
    simp only [hno, hr, true_and, false_or]
    simp [Reads, sepBy, herr, eq_comm]

/-- A list with separators is refused exactly where its first item is. -/
theorem refuses_sepBy1 {separator : Rule β} {rule : Rule α} {text : List Char} :
    Refuses (sepBy1 separator rule) text ↔ Refuses rule text := by
  constructor
  · intro h value rest hr
    refine h _ _ (reads_bind.mpr ⟨value, rest, hr, reads_bind.mpr ⟨_, _, rfl, rfl⟩⟩)
  · intro h values rest hr
    obtain ⟨first, mid, hf, -⟩ := reads_bind.mp hr
    exact h first mid hf

/-! ## Places -/

theorem reads_located {rule : Rule α} {text rest : List Char} {value : Located α} :
    Reads (located rule) text value rest ↔
      value.start = Text.skipBlanks text ∧ Reads rule (Text.skipBlanks text) value.item rest := by
  have heq : located rule text =
      (do let item ← rule; pure ⟨Text.skipBlanks text, item⟩ : Rule (Located α))
        (Text.skipBlanks text) := rfl
  unfold Reads at *
  rw [heq]
  constructor
  · intro h
    obtain ⟨item, mid, hi, hp⟩ := reads_bind.mp h
    obtain ⟨rfl, rfl⟩ := reads_pure.mp hp
    exact ⟨rfl, hi⟩
  · rintro ⟨hstart, hi⟩
    refine reads_bind.mpr ⟨value.item, rest, hi, reads_pure.mpr ⟨?_, rfl⟩⟩
    rw [← hstart]

/-! ## Progress -/

/-- In a sequence it is enough that the first rule makes the text shorter and the second never makes
it longer. -/
theorem Shrinks.bind {rule : Rule α} {next : α → Rule β} (hs : Shrinks rule)
    (hn : ∀ value ⦃text result rest⦄, Reads (next value) text result rest →
      rest.length ≤ text.length) : Shrinks (rule >>= next) := by
  intro text value rest h
  obtain ⟨first, mid, hf, hr⟩ := reads_bind.mp h
  exact Nat.lt_of_le_of_lt (hn first hr) (hs hf)

theorem Shrinks.choice_pair {first second : Rule α} (hf : Shrinks first) (hs : Shrinks second) :
    Shrinks (choice [first, second]) := by
  intro text value rest h
  rcases reads_choice_pair.mp h with h | ⟨-, h⟩
  · exact hf h
  · exact hs h

theorem Repeats.length_le {rule : Rule α} (hs : Shrinks rule) {text rest : List Char}
    {values : List α} (h : Repeats rule text values rest) : rest.length ≤ text.length := by
  induction h with
  | stop => exact Nat.le_refl _
  | step hr _ ih => exact Nat.le_trans ih (Nat.le_of_lt (hs hr))

/-! ## Recursion -/

/-- The rule as its own definition may use it on a text of the given length. -/
def shorter (length : Nat) (rule : Rule α) : Rule α :=
  fun rest => if rest.length < length then rule rest else fail "a shorter text" rest

theorem recursive_unfold (body : Rule α → Rule α) (text : List Char) :
    recursive body text = body (shorter text.length (recursive body)) text := by
  rw [recursive]
  rfl

theorem Reads.of_shorter {length : Nat} {rule : Rule α} {text rest : List Char} {value : α}
    (h : Reads (shorter length rule) text value rest) :
    text.length < length ∧ Reads rule text value rest := by
  unfold Reads shorter at h
  split at h
  · rename_i hlt
    exact ⟨hlt, h⟩
  · exact absurd h (by simp [fail])

/-- What a definition reads whenever the rule inside it does, the recursive rule reads. -/
theorem reads_recursive_of {body : Rule α → Rule α} {P : List Char → α → List Char → Prop}
    (step : ∀ rule : Rule α, (∀ text value rest, Reads rule text value rest → P text value rest) →
      ∀ text value rest, Reads (body rule) text value rest → P text value rest)
    {text rest : List Char} {value : α} (h : Reads (recursive body) text value rest) :
    P text value rest := by
  induction hn : text.length using Nat.strongRecOn generalizing text value rest with
  | ind n ih =>
    unfold Reads at h
    rw [recursive_unfold] at h
    -- the rule inside reads only shorter texts, where the induction hypothesis holds
    refine step _ (fun text' value' rest' h' => ?_) _ _ _ h
    obtain ⟨hlt, hr⟩ := h'.of_shorter
    exact ih text'.length (hn ▸ hlt) hr rfl

/-- The two rules do the same on all texts shorter than the given length. -/
def AgreeBelow (length : Nat) (rule rule' : Rule α) : Prop :=
  ∀ text : List Char, text.length < length → rule text = rule' text

/-- Where the definition uses the rule on shorter texts only, the test for one changes nothing. -/
theorem recursive_eq {body : Rule α → Rule α}
    (hlocal : ∀ length (rule : Rule α), AgreeBelow length rule (recursive body) →
      AgreeBelow (length + 1) (body rule) (body (recursive body))) :
    recursive body = body (recursive body) := by
  funext text
  rw [recursive_unfold]
  refine hlocal text.length _ (fun rest hlt => ?_) text (Nat.lt_succ_self _)
  exact if_pos hlt

/-- What a definition keeps of the rule inside it, some rule has that does as the recursive rule does
on all texts of bounded length. -/
theorem exists_agreeBelow {body : Rule α → Rule α} {P : Rule α → Prop}
    (hlocal : ∀ length (rule : Rule α), AgreeBelow length rule (recursive body) →
      AgreeBelow (length + 1) (body rule) (body (recursive body)))
    (base : Rule α) (hbase : P base) (step : ∀ rule : Rule α, P rule → P (body rule))
    (length : Nat) : ∃ rule, P rule ∧ AgreeBelow length rule (recursive body) := by
  induction length with
  | zero => exact ⟨base, hbase, fun text hlt => absurd hlt (Nat.not_lt_zero _)⟩
  | succ n ih =>
    obtain ⟨rule, hrule, hagree⟩ := ih
    refine ⟨body rule, step rule hrule, ?_⟩
    rw [recursive_eq hlocal]
    exact hlocal n rule hagree

/-- What a definition keeps of the results of the rule inside it, all results of the recursive rule
have, if only some rule has it. -/
theorem forall_recursive {body : Rule α → Rule α}
    {P : List Char → Except Failure (α × List Char) → Prop}
    (hlocal : ∀ length (rule : Rule α), AgreeBelow length rule (recursive body) →
      AgreeBelow (length + 1) (body rule) (body (recursive body)))
    (base : Rule α) (hbase : ∀ text, P text (base text))
    (step : ∀ rule : Rule α, (∀ text, P text (rule text)) → ∀ text, P text (body rule text))
    (text : List Char) : P text (recursive body text) := by
  obtain ⟨rule, hrule, hagree⟩ :=
    exists_agreeBelow (P := fun rule : Rule α => ∀ text, P text (rule text)) hlocal base hbase step
      (text.length + 1)
  rw [← hagree text (Nat.lt_succ_self _)]
  exact hrule text

/-- Two sequences agree on a text if their first rules do there, and their second rules on what the
first one leaves. -/
theorem bind_congr_at {rule rule' : Rule α} {next next' : α → Rule β} {text : List Char}
    (hr : rule text = rule' text)
    (hn : ∀ value rest, Reads rule' text value rest → next value rest = next' value rest) :
    (rule >>= next) text = (rule' >>= next') text := by
  rw [bind_apply, bind_apply, hr]
  cases h : rule' text with
  | error failure => rfl
  | ok success => exact hn success.1 success.2 h

theorem choice_pair_congr_at {first first' second second' : Rule α} {text : List Char}
    (hf : first text = first' text) (hs : second text = second' text) :
    choice [first, second] text = choice [first', second'] text := by
  change either first second text = either first' second' text
  unfold either
  rw [hf, hs]

theorem expected_congr_at {label : String} {rule rule' : Rule α} {text : List Char}
    (h : rule text = rule' text) : expected label rule text = expected label rule' text := by
  unfold expected
  rw [h]

theorem AgreeBelow.many {length : Nat} {rule rule' : Rule α} (h : AgreeBelow length rule rule') :
    AgreeBelow length (many rule) (many rule') := by
  intro text hlt
  refine congrArg Except.ok ?_
  fun_induction collect rule text with
  | case1 text failure herr =>
    rw [h text hlt] at herr
    rw [collect, herr]
  | case2 text value mid hr hmid values rest hc ih =>
    rw [h text hlt] at hr
    rw [collect, hr]
    simp only [hmid, if_true, ← ih (Nat.lt_trans hmid hlt), hc]
  | case3 text value mid hr hmid =>
    rw [h text hlt] at hr
    rw [collect, hr]
    simp only [hmid, if_false]

end Rule

end AlgebraicData
