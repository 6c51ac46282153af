import AlgebraicData.Proofs.Grammar.Failure

/-!
# What repetition keeps and what it gives back

A repetition is described by its rounds.  `Rounds` puts rounds of any kind one after another, and
there are two kinds: `many` and `many1` go on while a round reads something (`ReadsSome`), lists with
separators while a separator and an item follow (`ReadsNext`).

* `reads_many_iff_exhausts` — a repetition reads round after round, up to the first round that is
  refused, or up to and with the first that reads nothing (`Exhausts`);
* `reads_sepBy1_iff_longestList` — a list goes on as far as it can, and a separator with no item
  behind it is given back (`LongestList`).

Nothing is known of the rules but that what they leave is an end of their text.
-/

namespace AlgebraicData

namespace Rule

variable {α β : Type}

/-- What the rule leaves is an end of its text. -/
def LeavesEnd (rule : Rule α) : Prop :=
  ∀ ⦃text value rest⦄, Reads rule text value rest → rest <:+ text

theorem Tracks.leavesEnd {rule : Rule α} (h : Tracks rule) : LeavesEnd rule :=
  fun _ _ _ hr => h.suffix hr

/-- A rule that does not make its text shorter leaves it as it is. -/
theorem LeavesEnd.eq_of_not_lt {rule : Rule α} (h : LeavesEnd rule) {text rest : List Char}
    {value : α} (hr : Reads rule text value rest) (hlt : ¬ rest.length < text.length) :
    rest = text :=
  (h hr).eq_of_length_le (Nat.not_lt.mp hlt)

/-! ## Rounds -/

section Rounds

variable {Round : List Char → α → List Char → Prop}

/-- Round after round, each beginning where the one before it ended. -/
inductive Rounds (Round : List Char → α → List Char → Prop) :
    List Char → List α → List Char → Prop where
  | nil {text : List Char} : Rounds Round text [] text
  | cons {text mid rest : List Char} {value : α} {values : List α} :
      Round text value mid → Rounds Round mid values rest →
      Rounds Round text (value :: values) rest

/-- There is at most one round to make on each text. -/
def Determined (Round : List Char → α → List Char → Prop) : Prop :=
  ∀ ⦃text value value' rest rest'⦄, Round text value rest → Round text value' rest' →
    value = value' ∧ rest = rest'

/-- Rounds that cannot go on are as many as there can be. -/
theorem Rounds.prefix_of_stuck (hround : Determined Round) {text rest rest' : List Char}
    {values values' : List α} (h : Rounds Round text values rest)
    (hstuck : ∀ value next, ¬ Round rest value next) (h' : Rounds Round text values' rest') :
    values' <+: values := by
  induction h' generalizing values with
  | nil => exact List.nil_prefix
  | cons hfirst' _ ih =>
    cases h with
    | nil => exact absurd hfirst' (hstuck _ _)
    | cons hfirst hmore =>
      obtain ⟨rfl, rfl⟩ := hround hfirst hfirst'
      exact List.cons_prefix_cons.mpr ⟨rfl, ih hmore⟩

end Rounds

/-- The rule reads the value and makes the text shorter. -/
def ReadsSome (rule : Rule α) (text : List Char) (value : α) (rest : List Char) : Prop :=
  Reads rule text value rest ∧ rest.length < text.length

/-- A separator stands in front of the text, and after it the rule reads the value. -/
def ReadsNext (separator : Rule β) (rule : Rule α) (text : List Char) (value : α)
    (rest : List Char) : Prop :=
  ∃ sign mid, Reads separator text sign mid ∧ Reads rule mid value rest

theorem reads_bind_eq_readsNext (separator : Rule β) (rule : Rule α) :
    Reads (do let _ ← separator; rule) = ReadsNext separator rule := by
  funext text value rest
  exact propext reads_bind

theorem determined_readsNext (separator : Rule β) (rule : Rule α) :
    Determined (ReadsNext separator rule) := by
  rintro text value value' rest rest' ⟨sign, mid, hsep, hr⟩ ⟨sign', mid', hsep', hr'⟩
  obtain ⟨-, rfl⟩ := hsep.unique hsep'
  exact hr.unique hr'

/-! ## Any number of values -/

/-- The values are what the rule reads off the text round after round, up to the first round that is
refused, or up to and with the first round that reads nothing.  The rest is where the last round
ended that read something. -/
def Exhausts (rule : Rule α) (text : List Char) (values : List α) (rest : List Char) : Prop :=
  ∃ front, Rounds (ReadsSome rule) text front rest ∧
    (Refuses rule rest ∧ values = front ∨
      ∃ last, Reads rule rest last rest ∧ values = front ++ [last])

theorem collect_of_refuses {rule : Rule α} {text : List Char} (h : Refuses rule text) :
    collect rule text = ([], text) := by
  obtain ⟨failure, herr⟩ := h.exists_error
  rw [collect, herr]

theorem collect_of_reads_nothing {rule : Rule α} {text : List Char} {value : α}
    (h : Reads rule text value text) : collect rule text = ([value], text) := by
  rw [collect, show rule text = .ok (value, text) from h]
  simp only [lt_irrefl, if_false]

theorem collect_of_rounds {rule : Rule α} {text rest : List Char} {values : List α}
    (h : Rounds (ReadsSome rule) text values rest) :
    collect rule text = (values ++ (collect rule rest).1, (collect rule rest).2) := by
  induction h with
  | nil => rfl
  | @cons text mid rest value values hround _ ih =>
    rw [collect, show rule text = .ok (value, mid) from hround.1]
    simp only [hround.2, if_true, ih, List.cons_append]

/-- The rounds come to an end. -/
theorem exists_exhausts {rule : Rule α} (hrule : LeavesEnd rule) (text : List Char) :
    ∃ values rest, Exhausts rule text values rest := by
  fun_induction collect rule text with
  | case1 text failure herr =>
    exact ⟨[], text, [], .nil, .inl ⟨refuses_of_error herr, rfl⟩⟩
  | case2 text value mid hr hlt _ _ _ ih =>
    obtain ⟨values, rest, front, hrounds, hend⟩ := ih
    refine ⟨value :: values, rest, value :: front, .cons ⟨hr, hlt⟩ hrounds, ?_⟩
    rcases hend with ⟨hrefuses, rfl⟩ | ⟨last, hlast, rfl⟩
    · exact .inl ⟨hrefuses, rfl⟩
    · exact .inr ⟨last, hlast, rfl⟩
  | case3 text value mid hr hlt =>
    have hmid : mid = text := hrule.eq_of_not_lt hr hlt
    subst hmid
    exact ⟨[value], mid, [], .nil, .inr ⟨value, hr, rfl⟩⟩

theorem Exhausts.reads_many {rule : Rule α} {text rest : List Char} {values : List α}
    (h : Exhausts rule text values rest) : Reads (many rule) text values rest := by
  refine congrArg Except.ok ?_
  obtain ⟨front, hrounds, ⟨hrefuses, rfl⟩ | ⟨last, hlast, rfl⟩⟩ := h
  · rw [collect_of_rounds hrounds, collect_of_refuses hrefuses, List.append_nil]
  · rw [collect_of_rounds hrounds, collect_of_reads_nothing hlast]

theorem reads_many_iff_exhausts {rule : Rule α} (hrule : LeavesEnd rule) {text rest : List Char}
    {values : List α} :
    Reads (many rule) text values rest ↔ Exhausts rule text values rest := by
  constructor
  · intro h
    obtain ⟨values', rest', h'⟩ := exists_exhausts hrule text
    obtain ⟨rfl, rfl⟩ := h.unique h'.reads_many
    exact h'
  · exact Exhausts.reads_many

theorem Rounds.length_add_length_le {rule : Rule α} {text rest : List Char} {values : List α}
    (h : Rounds (ReadsSome rule) text values rest) :
    values.length + rest.length ≤ text.length := by
  induction h with
  | nil => simp
  | cons hround _ ih =>
    have hlt := hround.2
    rw [List.length_cons]
    omega

/-- Each round but the last reads something. -/
theorem Exhausts.length_le {rule : Rule α} {text rest : List Char} {values : List α}
    (h : Exhausts rule text values rest) : values.length ≤ text.length + 1 := by
  obtain ⟨front, hrounds, ⟨-, rfl⟩ | ⟨last, -, rfl⟩⟩ := h
  · have hle := hrounds.length_add_length_le
    omega
  · have hle := hrounds.length_add_length_le
    rw [List.length_append, List.length_singleton]
    omega

/-! ## One value or more -/

theorem many1_eq_error_iff {rule : Rule α} {text : List Char} {failure : Failure} :
    many1 rule text = .error failure ↔ rule text = .error failure := by
  rw [many1, bind_eq_error_iff, or_iff_left]
  rintro ⟨first, mid, -, h⟩
  cases h

theorem many1_of_reads {rule : Rule α} {text rest : List Char} {value : α}
    (h : Reads rule text value rest) :
    many1 rule text = .ok (value :: (collect rule rest).1, (collect rule rest).2) := by
  rw [many1, bind_apply, show rule text = .ok (value, rest) from h]
  rfl

/-- The first round is counted twice if it reads nothing. -/
theorem many1_of_reads_nothing {rule : Rule α} {text : List Char} {value : α}
    (h : Reads rule text value text) : Reads (many1 rule) text [value, value] text := by
  unfold Reads
  rw [many1_of_reads h, collect_of_reads_nothing h]

theorem many1_eq_many_iff {rule : Rule α} (hrule : LeavesEnd rule) {text rest : List Char}
    {value : α} (h : Reads rule text value rest) :
    many1 rule text = many rule text ↔ rest ≠ text := by
  constructor
  · rintro heq rfl
    have hvalues : ([value, value], rest) = ([value], rest) := by
      rw [← collect_of_reads_nothing h]
      exact Except.ok.inj ((many1_of_reads_nothing h).symm.trans heq)
    simp at hvalues
  · intro hne
    have hlt : rest.length < text.length := by
      by_contra hlt
      exact hne (hrule.eq_of_not_lt h hlt)
    rw [many1_of_reads h]
    exact congrArg Except.ok (collect_of_rounds (.cons ⟨h, hlt⟩ .nil)).symm

/-! ## Lists with separators -/

/-- The list begins with an item and goes on with separators and items as long as it can, to the end
of its last item.  What follows is no separator, or a separator without an item. -/
def LongestList (separator : Rule β) (rule : Rule α) (text : List Char) (values : List α)
    (rest : List Char) : Prop :=
  ∃ first more mid, values = first :: more ∧ Reads rule text first mid ∧
    Rounds (ReadsNext separator rule) mid more rest ∧
    (∀ more' rest', Rounds (ReadsNext separator rule) mid more' rest' → more' <+: more) ∧
    (Refuses separator rest ∨
      ∃ sign after, Reads separator rest sign after ∧ Refuses rule after)

theorem forall_not_readsNext_iff {separator : Rule β} {rule : Rule α} {text : List Char} :
    (∀ value rest, ¬ ReadsNext separator rule text value rest) ↔
      Refuses separator text ∨
        ∃ sign after, Reads separator text sign after ∧ Refuses rule after := by
  constructor
  · intro h
    rcases reads_or_refuses separator text with ⟨sign, after, hsep⟩ | hrefuses
    · exact .inr ⟨sign, after, hsep, fun value rest hr => h value rest ⟨sign, after, hsep, hr⟩⟩
    · exact .inl hrefuses
  · rintro (hrefuses | ⟨sign, after, hsep, hrefuses⟩) value rest ⟨sign', mid, hsep', hr⟩
    · exact hrefuses sign' mid hsep'
    · obtain ⟨-, rfl⟩ := hsep.unique hsep'
      exact hrefuses value rest hr

/-- A repetition without a test for progress is a sequence of rounds that cannot go on. -/
theorem repeats_iff_rounds {rule : Rule α} {text rest : List Char} {values : List α} :
    Repeats rule text values rest ↔ Rounds (Reads rule) text values rest ∧ Refuses rule rest := by
  constructor
  · intro h
    induction h with
    | stop hrefuses => exact ⟨.nil, hrefuses⟩
    | step hr _ ih => exact ⟨.cons hr ih.1, ih.2⟩
  · rintro ⟨hrounds, hrefuses⟩
    induction hrounds with
    | nil => exact .stop hrefuses
    | cons hr _ ih => exact .step hr (ih hrefuses)

theorem longestList_iff {separator : Rule β} {rule : Rule α} {text rest : List Char}
    {values : List α} :
    LongestList separator rule text values rest ↔
      ∃ first more mid, values = first :: more ∧ Reads rule text first mid ∧
        Repeats (do let _ ← separator; rule) mid more rest := by
  simp only [repeats_iff_rounds, Refuses, reads_bind_eq_readsNext]
  constructor
  · rintro ⟨first, more, mid, rfl, hfirst, hmore, -, hend⟩
    exact ⟨first, more, mid, rfl, hfirst, hmore, forall_not_readsNext_iff.mpr hend⟩
  · rintro ⟨first, more, mid, rfl, hfirst, hmore, hstuck⟩
    refine ⟨first, more, mid, rfl, hfirst, hmore, fun more' rest' hmore' => ?_,
      forall_not_readsNext_iff.mp hstuck⟩
    exact hmore.prefix_of_stuck (determined_readsNext separator rule) hstuck hmore'

/-- That a separator with an item is never empty is enough for each round to make the text shorter. -/
theorem shrinks_of_readsNext {separator : Rule β} {rule : Rule α} (hrule : LeavesEnd rule)
    (hseparator : LeavesEnd separator)
    (hnext : ∀ text value rest, ReadsNext separator rule text value rest → rest ≠ text) :
    Shrinks (do let _ ← separator; rule) := by
  intro text value rest h
  rw [reads_bind_eq_readsNext] at h
  have hne := hnext text value rest h
  obtain ⟨sign, mid, hsep, hr⟩ := h
  have hsuffix : rest <:+ text := (hrule hr).trans (hseparator hsep)
  by_contra hlt
  exact hne (hsuffix.eq_of_length_le (Nat.not_lt.mp hlt))

theorem reads_sepBy1_iff_longestList {separator : Rule β} {rule : Rule α}
    (hs : Shrinks (do let _ ← separator; rule)) {text rest : List Char} {values : List α} :
    Reads (sepBy1 separator rule) text values rest ↔
      LongestList separator rule text values rest := by
  rw [longestList_iff, reads_sepBy1 hs]

/-- What the four repetitions do with any rules that leave ends of their texts.

Any number of values: it never fails, and reads round after round up to the first round that is
refused, or up to and with the first that reads nothing, in at most one round more than there are
characters.  One value or more: it fails exactly as the first round does, and else it does the same,
but for a first round that reads nothing, which is counted twice.

If a separator with an item is never empty, a list with separators fails exactly as its first item
does, and else is the longest list there is; where it fails, a list that may be empty is empty and
leaves the text as it is, and else it is the same list. -/
theorem repetition_backtracks {rule : Rule α} {separator : Rule β} (hrule : LeavesEnd rule)
    (hseparator : LeavesEnd separator) (text : List Char) :
    ((∃ values rest, Reads (many rule) text values rest) ∧
      ∀ values rest, (Reads (many rule) text values rest ↔ Exhausts rule text values rest) ∧
        (Reads (many rule) text values rest → values.length ≤ text.length + 1)) ∧
    ((∀ failure, many1 rule text = .error failure ↔ rule text = .error failure) ∧
      ∀ value rest, Reads rule text value rest →
        (many1 rule text = many rule text ↔ rest ≠ text) ∧
        (rest = text → Reads (many1 rule) text [value, value] text)) ∧
    ((∀ text value rest, ReadsNext separator rule text value rest → rest ≠ text) →
      (∀ failure, sepBy1 separator rule text = .error failure ↔ rule text = .error failure) ∧
      (∀ values rest, Reads (sepBy1 separator rule) text values rest ↔
        LongestList separator rule text values rest) ∧
      (∀ values rest, Reads (sepBy1 separator rule) text values rest →
        Reads (sepBy separator rule) text values rest) ∧
      ∀ failure, sepBy1 separator rule text = .error failure →
        Reads (sepBy separator rule) text [] text) := by
  refine ⟨⟨exists_reads_many rule text, fun values rest => ?_⟩,
    ⟨fun failure => many1_eq_error_iff, fun value rest h => ?_⟩, fun hnext => ?_⟩
  · have hiff : Reads (many rule) text values rest ↔ Exhausts rule text values rest :=
      reads_many_iff_exhausts hrule
    exact ⟨hiff, fun h => (hiff.mp h).length_le⟩
  · refine ⟨many1_eq_many_iff hrule h, ?_⟩
    rintro rfl
    exact many1_of_reads_nothing h
  · have hs := shrinks_of_readsNext hrule hseparator hnext
    refine ⟨fun failure => sepBy1_eq_error_iff, fun values rest => reads_sepBy1_iff_longestList hs,
      fun values rest h => reads_sepBy.mpr (.inl h), fun failure h => ?_⟩
    exact reads_sepBy.mpr (.inr ⟨refuses_of_error h, rfl, rfl⟩)

/-- A round that reads nothing is kept once, and a comma without an item is given back. -/
theorem marks_backtrack :
    (LeavesEnd (maybe (Token.symbol "a")) ∧ LeavesEnd (Token.symbol "a") ∧
      LeavesEnd (Token.symbol ",")) ∧
    Reads (many (maybe (Token.symbol "a"))) ['a', ' ', 'a', 'b'] [some "a", some "a", none] ['b'] ∧
    Reads (sepBy (Token.symbol ",") (Token.symbol "a")) ['a', ',', ' ', 'a', ',', 'b'] ["a", "a"]
      [',', 'b'] := by
  have hmark : Tracks (Token.symbol "a") := Token.tracks_symbol "a"
  have hcomma : LeavesEnd (Token.symbol ",") := (Token.tracks_symbol ",").leavesEnd
  refine ⟨⟨hmark.maybe.leavesEnd, hmark.leavesEnd, hcomma⟩, ?_, ?_⟩
  · refine ((repetition_backtracks hmark.maybe.leavesEnd hcomma _).1.2 _ _).1.mpr ?_
    exact ⟨[some "a", some "a"], .cons ⟨rfl, by decide⟩ (.cons ⟨rfl, by decide⟩ .nil),
      .inr ⟨none, rfl, rfl⟩⟩
  · have hnext : ∀ text value rest,
        ReadsNext (Token.symbol ",") (Token.symbol "a") text value rest → rest ≠ text := by
      rintro _ value rest ⟨sign, mid, hsep, hr⟩ rfl
      have hlt := Token.shrinks_symbol (by decide) hsep
      have hle := (hmark.suffix hr).length_le
      omega
    obtain ⟨-, hlist, hsepBy, -⟩ := (repetition_backtracks hmark.leavesEnd hcomma _).2.2 hnext
    refine hsepBy _ _ ((hlist _ _).mpr (longestList_iff.mpr ?_))
    refine ⟨"a", ["a"], [',', ' ', 'a', ',', 'b'], rfl, rfl, .step rfl (.stop ?_)⟩
    exact refuses_of_error rfl

end Rule

end AlgebraicData
