import AlgebraicData.Proofs.Grammar.ViablePrefix

/-!
# The layout of a text does not matter

Blanks separate tokens and mean nothing else.  So a text may be laid out anew: blanks may be replaced
by other blanks, and put where a token ends in any case, at the ends of the text and next to a sign
of one character.  The parser then does the same as before, and fails at the same place if it fails.

* `Relays` — one change of the layout.
* `Alike` — the same characters up to blanks, with blanks between the same characters wherever they
  could hold two tokens apart.  A token in front of one text stands in front of the other, and what
  follows it is alike again (`Alike.begins`).
* `Corresponds` — two rules do alike on texts that are alike.  Every way of combining rules keeps
  this.  A choice between failures goes by the length of what remained, which changes with the layout;
  but places lie in the same order as the characters that are not blanks (`IsPlace.length_lt_iff`).
-/

namespace AlgebraicData

/-! ## Changing the layout -/

/-- The signs of one character. -/
def separators : List Char :=
  ['|', '=', '(', ')', ',', '{', '}']

theorem separators_subset_signs : separators ⊆ Token.signs := by
  decide

theorem isBlank_sign {c : Char} (hc : c ∈ Token.signs) : Text.isBlank c = false := by
  simp only [Token.signs, List.mem_cons, List.not_mem_nil, or_false] at hc
  rcases hc with rfl | rfl | rfl | rfl | rfl | rfl | rfl | rfl | rfl | rfl | rfl | rfl | rfl <;>
    decide

/-- Nothing but blanks. -/
def AllBlank (blanks : List Char) : Prop :=
  ∀ c ∈ blanks, Text.isBlank c = true

/-- One change of the layout of a text. -/
inductive Relays : List Char → List Char → Prop where
  /-- Blanks are replaced by others. -/
  | replace {front blanks blanks' rest : List Char} : AllBlank blanks → AllBlank blanks' →
      blanks ≠ [] → blanks' ≠ [] → Relays (front ++ blanks ++ rest) (front ++ blanks' ++ rest)
  /-- Blanks are put in front of the text. -/
  | first {blanks text : List Char} : AllBlank blanks → Relays text (blanks ++ text)
  /-- Blanks are put after the text. -/
  | last {blanks text : List Char} : AllBlank blanks → Relays text (text ++ blanks)
  /-- Blanks are put in front of a sign of one character. -/
  | before {front blanks rest : List Char} {c : Char} : AllBlank blanks → c ∈ separators →
      Relays (front ++ c :: rest) (front ++ blanks ++ c :: rest)
  /-- Blanks are put after a sign of one character. -/
  | after {front blanks rest : List Char} {c : Char} : AllBlank blanks → c ∈ separators →
      Relays (front ++ c :: rest) (front ++ c :: blanks ++ rest)

/-- The characters that are not blanks. -/
def withoutBlanks (text : List Char) : List Char :=
  text.filter fun c => !Text.isBlank c

/-- The failure, with the text that remained changed. -/
def Failure.mapPlace (f : List Char → List Char) (failure : Failure) : Failure :=
  { failure with remaining := f failure.remaining }

/-! ## Texts that are alike -/

/-- The character at the front, if it could belong to the same token as one before it. -/
def joined? (text : List Char) : Option Char :=
  text.head?.filter fun c => !Text.isBlank c && !separators.contains c

/-- The texts have the same characters up to blanks, and what may be joined is joined in both. -/
inductive Alike : List Char → List Char → Prop where
  | nil : Alike [] []
  | left {c : Char} {text text' : List Char} : Text.isBlank c = true → Alike text text' →
      Alike (c :: text) text'
  | right {c : Char} {text text' : List Char} : Text.isBlank c = true → Alike text text' →
      Alike text (c :: text')
  | char {c : Char} {text text' : List Char} : Text.isBlank c = false →
      (c ∈ separators ∨ joined? text = joined? text') → Alike text text' →
      Alike (c :: text) (c :: text')

namespace Alike

variable {text text' : List Char}

theorem refl (text : List Char) : Alike text text := by
  induction text with
  | nil => exact .nil
  | cons c text ih =>
    cases hblank : Text.isBlank c with
    | true => exact .left hblank (.right hblank ih)
    | false => exact .char hblank (.inr rfl) ih

theorem symm (h : Alike text text') : Alike text' text := by
  induction h with
  | nil => exact .nil
  | left hblank _ ih => exact .right hblank ih
  | right hblank _ ih => exact .left hblank ih
  | char hblank hjoined _ ih => exact .char hblank (hjoined.imp_right Eq.symm) ih

theorem withoutBlanks_eq (h : Alike text text') : withoutBlanks text = withoutBlanks text' := by
  unfold withoutBlanks
  induction h with
  | nil => rfl
  | left hblank _ ih => simpa [hblank] using ih
  | right hblank _ ih => simpa [hblank] using ih
  | char hblank _ _ ih => simpa [hblank] using ih

theorem allBlank (h : Alike text text') (hblank : AllBlank text) : AllBlank text' := by
  have hnil : withoutBlanks text' = [] := by
    rw [← h.withoutBlanks_eq, withoutBlanks, List.filter_eq_nil_iff]
    intro c hc
    simp [hblank c hc]
  rw [withoutBlanks, List.filter_eq_nil_iff] at hnil
  intro c hc
  simpa using hnil c hc

theorem skipBlanks_left (h : Alike text text') : Alike (Text.skipBlanks text) text' := by
  induction h with
  | nil => exact .nil
  | left hblank _ ih =>
    rw [Text.skipBlanks, List.dropWhile_cons_of_pos hblank]
    exact ih
  | right hblank _ ih => exact .right hblank ih
  | char hblank hjoined h _ =>
    rw [Token.skipBlanks_eq_self hblank]
    exact .char hblank hjoined h

theorem skipBlanks (h : Alike text text') :
    Alike (Text.skipBlanks text) (Text.skipBlanks text') :=
  h.skipBlanks_left.symm.skipBlanks_left.symm

/-! ### What changes of the layout keep -/

theorem append_blanks {blanks blanks' : List Char} (hblanks : AllBlank blanks)
    (hblanks' : AllBlank blanks') (h : Alike text text') :
    Alike (blanks ++ text) (blanks' ++ text') := by
  induction blanks with
  | nil =>
    induction blanks' with
    | nil => exact h
    | cons c blanks' ih =>
      obtain ⟨hc, hblanks'⟩ := List.forall_mem_cons.mp hblanks'
      exact .right hc (ih hblanks')
  | cons c blanks ih =>
    obtain ⟨hc, hblanks⟩ := List.forall_mem_cons.mp hblanks
    exact .left hc (ih hblanks)

/-- The same characters may stand in front of both texts if these are joined to them alike. -/
theorem append_left (front : List Char) (hjoined : joined? text = joined? text')
    (h : Alike text text') : Alike (front ++ text) (front ++ text') := by
  induction front with
  | nil => exact h
  | cons c front ih =>
    have hfront : joined? (front ++ text) = joined? (front ++ text') := by
      cases front with
      | nil => exact hjoined
      | cons d front => rfl
    cases hblank : Text.isBlank c with
    | true => exact .left hblank (.right hblank ih)
    | false => exact .char hblank (.inr hfront) ih

theorem joined?_of_allBlank {blanks : List Char} (hblanks : AllBlank blanks) (hne : blanks ≠ [])
    (text : List Char) : joined? (blanks ++ text) = none := by
  obtain ⟨c, blanks, rfl⟩ := List.exists_cons_of_ne_nil hne
  simp [joined?, hblanks c List.mem_cons_self]

theorem joined?_separator {c : Char} (hc : c ∈ separators) (text : List Char) :
    joined? (c :: text) = none := by
  simp [joined?, hc]

/-- Blanks in front of a text are no change where nothing could be joined to it. -/
theorem joined?_append {blanks : List Char} (hblanks : AllBlank blanks)
    (htext : joined? text = none) : joined? (blanks ++ text) = none := by
  cases blanks with
  | nil => exact htext
  | cons c blanks => exact joined?_of_allBlank hblanks (List.cons_ne_nil c blanks) text

theorem of_relays (h : Relays text text') : Alike text text' := by
  cases h with
  | @replace front blanks blanks' rest hblanks hblanks' hne hne' =>
    rw [List.append_assoc, List.append_assoc]
    refine append_left front ?_ (append_blanks hblanks hblanks' (refl rest))
    rw [joined?_of_allBlank hblanks hne, joined?_of_allBlank hblanks' hne']
  | @first blanks text hblanks =>
    exact append_blanks (List.forall_mem_nil _) hblanks (refl text)
  | @last blanks text hblanks =>
    have hend : Alike [] (blanks ++ []) := append_blanks (List.forall_mem_nil _) hblanks .nil
    have hjoined : joined? [] = joined? (blanks ++ []) := (joined?_append hblanks rfl).symm
    simpa using append_left text hjoined hend
  | @before front blanks rest c hblanks hc =>
    rw [List.append_assoc]
    refine append_left front ?_ (append_blanks (List.forall_mem_nil _) hblanks (refl _))
    rw [joined?_append hblanks (joined?_separator hc rest), joined?_separator hc]
  | @after front blanks rest c hblanks hc =>
    rw [List.append_assoc, List.cons_append]
    refine append_left front (by simp [joined?]) ?_
    have hrest : Alike rest (blanks ++ rest) :=
      append_blanks (List.forall_mem_nil _) hblanks (refl rest)
    exact .char (isBlank_sign (separators_subset_signs hc)) (.inl hc) hrest

/-! ### Tokens -/

theorem exists_cons {c : Char} {rest text' : List Char} (h : Alike (c :: rest) text')
    (hblank : Text.isBlank c = false) (hhead : ∀ d ∈ text'.head?, Text.isBlank d = false) :
    ∃ rest', text' = c :: rest' ∧ (c ∈ separators ∨ joined? rest = joined? rest') ∧
      Alike rest rest' := by
  cases h with
  | left hleft => exact absurd hleft (by simp [hblank])
  | @right d _ _ hright => exact absurd hright (by simp [hhead d rfl])
  | @char _ _ rest' _ hjoined h => exact ⟨rest', rfl, hjoined, h⟩

/-- Characters that could belong to one token stand in front of both texts, and both go on alike. -/
theorem exists_append {chars rest text' : List Char} (h : Alike (chars ++ rest) text')
    (hne : chars ≠ []) (hchars : ∀ c ∈ chars, Text.isBlank c = false ∧ c ∉ separators)
    (hhead : ∀ d ∈ text'.head?, Text.isBlank d = false) :
    ∃ rest', text' = chars ++ rest' ∧ joined? rest = joined? rest' ∧ Alike rest rest' := by
  induction chars generalizing text' with
  | nil => exact absurd rfl hne
  | cons c chars ih =>
    obtain ⟨⟨hblank, hc⟩, hchars⟩ := List.forall_mem_cons.mp hchars
    rw [List.cons_append] at h
    obtain ⟨tail, rfl, hjoined, htail⟩ := exists_cons h hblank hhead
    replace hjoined := hjoined.resolve_left hc
    cases chars with
    | nil => exact ⟨tail, rfl, hjoined, htail⟩
    | cons d chars =>
      -- the next character is joined to this one in the first text, so it is in the second
      have hd : joined? (d :: chars ++ rest) = some d := by
        simp [joined?, hchars d List.mem_cons_self]
      rw [hd] at hjoined
      have htailhead : ∀ e ∈ tail.head?, Text.isBlank e = false := by
        obtain ⟨he, -⟩ := Option.filter_eq_some_iff.mp hjoined.symm
        intro e hmem
        obtain rfl : d = e := Option.some.inj (he.symm.trans hmem)
        exact (hchars d List.mem_cons_self).1
      obtain ⟨rest', rfl, hrest⟩ := ih htail (List.cons_ne_nil d chars) hchars htailhead
      exact ⟨rest', rfl, hrest⟩

end Alike

theorem continuesName_eq (text : List Char) :
    Token.continuesName text = (joined? text).any Token.isNameRest := by
  cases text with
  | nil => rfl
  | cons c text =>
    by_cases hrest : Token.isNameRest c = true
    · -- a character of a name is neither a blank nor a sign
      have hpunct : Text.isBlank c = false ∧ c ∉ Token.signs := by
        simpa [Token.isNameRest, Token.isPunctuation] using hrest
      have hc : c ∉ separators := fun hc => hpunct.2 (separators_subset_signs hc)
      simp [Token.continuesName, joined?, hrest, hpunct.1, hc]
    · simp [Token.continuesName, joined?, Option.any_filter, hrest]

namespace Token

theorem IsName.notMem_separators {name : String} (h : IsName name) :
    ∀ c ∈ name.toList, Text.isBlank c = false ∧ c ∉ separators := by
  intro c hc
  have hpunct : Text.isBlank c = false ∧ c ∉ signs := by
    simpa [isNameRest, isPunctuation] using h.all_isNameRest c hc
  exact ⟨hpunct.1, fun hmem => hpunct.2 (separators_subset_signs hmem)⟩

/-- A sign is a single character, or could be joined to what stands around it. -/
theorem separator_or_of_mem_signTexts : ∀ text ∈ signTexts,
    (∃ c ∈ separators, text.toList = [c]) ∨
      text.toList ≠ [] ∧ ∀ c ∈ text.toList, c ∈ signs ∧ c ∉ separators := by
  intro text hmem
  simp only [signTexts, List.mem_cons, List.not_mem_nil, or_false] at hmem
  rcases hmem with rfl | rfl | rfl | rfl | rfl | rfl | rfl | rfl | rfl
  case inr.inr.inr.inl => exact .inr ⟨by decide, by simp [signs, separators]⟩
  case inr.inr.inr.inr.inl => exact .inr ⟨by decide, by simp [signs, separators]⟩
  all_goals exact .inl ⟨_, by decide, rfl⟩

end Token

/-- A token in front of a text is in front of every text like it, and what follows is alike again. -/
theorem Alike.begins {text text' rest : List Char} {token : Token} (h : Alike text text')
    (hbegins : token.Begins text rest) : ∃ rest', token.Begins text' rest' ∧ Alike rest rest' := by
  obtain ⟨hskip, hlex, hends⟩ := Token.begins_iff.mp hbegins
  have hsame := h.skipBlanks
  rw [hskip] at hsame
  have hhead := (isPlace_skipBlanks text').2
  cases token with
  | word name =>
    have hne : name.toList ≠ [] := by
      obtain ⟨first, more, hname, -⟩ : Token.IsName name := hlex
      exact hname ▸ List.cons_ne_nil first more
    obtain ⟨rest', hskip', hjoined, hrest⟩ :=
      hsame.exists_append hne (Token.IsName.notMem_separators hlex) hhead
    have hends' : Token.continuesName rest' = false := by
      rw [continuesName_eq, ← hjoined, ← continuesName_eq]
      exact hends
    exact ⟨rest', Token.begins_iff.mpr ⟨hskip', hlex, hends'⟩, hrest⟩
  | sign sign =>
    rcases Token.separator_or_of_mem_signTexts sign hlex with ⟨c, hc, hsign⟩ | ⟨hne, hchars⟩
    · rw [Token.characters, hsign] at hsame
      obtain ⟨rest', hskip', -, hrest⟩ :=
        hsame.exists_cons (isBlank_sign (separators_subset_signs hc)) hhead
      refine ⟨rest', Token.begins_iff.mpr ⟨?_, hlex, trivial⟩, hrest⟩
      rw [hskip', Token.characters, hsign]
      rfl
    · have hjoin : ∀ c ∈ sign.toList, Text.isBlank c = false ∧ c ∉ separators :=
        fun c hc => ⟨isBlank_sign (hchars c hc).1, (hchars c hc).2⟩
      obtain ⟨rest', hskip', -, hrest⟩ := hsame.exists_append hne hjoin hhead
      exact ⟨rest', Token.begins_iff.mpr ⟨hskip', hlex, trivial⟩, hrest⟩

/-! ## Places -/

/-- Of two places of a text, the one that is further has fewer characters behind it that are not
blanks. -/
theorem IsPlace.length_lt_iff {text place place' : List Char} (h : IsPlace text place)
    (h' : IsPlace text place') : place.length < place'.length ↔
      (withoutBlanks place).length < (withoutBlanks place').length := by
  rcases List.suffix_or_suffix_of_suffix h.1 h'.1 with ⟨between, rfl⟩ | ⟨between, rfl⟩
  · cases between with
    | nil => simp
    | cons c between =>
      have hc : Text.isBlank c = false := h'.2 c rfl
      simp [withoutBlanks, hc]
  · simp [withoutBlanks]

/-! ## Rules that do alike -/

namespace Rule

variable {α β γ δ : Type}

/-- On texts that are alike, the first rule and the second read values that look the same and leave
texts that are alike, or fail at the same place. -/
structure Corresponds (view : α → γ) (rule rule' : Rule α) : Prop where
  reads : ∀ ⦃text text' value rest⦄, Alike text text' → Reads rule text value rest →
    ∃ value' rest', Reads rule' text' value' rest' ∧ view value = view value' ∧ Alike rest rest'
  fails : ∀ ⦃text text' failure⦄, Alike text text' → rule text = .error failure →
    ∃ failure', rule' text' = .error failure' ∧
      failure.mapPlace withoutBlanks = failure'.mapPlace withoutBlanks

theorem Corresponds.refuses {view : α → γ} {rule rule' : Rule α} (h : Corresponds view rule rule')
    {text text' : List Char} (halike : Alike text text') (hr : Refuses rule text) :
    Refuses rule' text' := by
  obtain ⟨failure, herr⟩ := hr.exists_error
  obtain ⟨failure', herr', -⟩ := h.fails halike herr
  exact refuses_of_error herr'

/-! ### Tokens -/

/-- A rule for a token fails in front of the first character that is not a blank, so it is enough to
know what it reads. -/
theorem corresponds_of_failsWith {rule : Rule α} {label : String}
    (hreads : ∀ ⦃text text' value rest⦄, Alike text text' → Reads rule text value rest →
      ∃ rest', Reads rule text' value rest' ∧ Alike rest rest')
    (hfails : Token.FailsWith rule (.mismatch label)) : Corresponds id rule rule := by
  constructor
  · intro text text' value rest halike hr
    obtain ⟨rest', hr', hrest⟩ := hreads halike hr
    exact ⟨value, rest', hr', rfl, hrest⟩
  · intro text text' failure halike herr
    have hrefuses : Refuses rule text' := by
      intro value rest' hr'
      obtain ⟨rest, hr, -⟩ := hreads halike.symm hr'
      exact refuses_of_error herr _ _ hr
    obtain ⟨failure', herr'⟩ := hrefuses.exists_error
    refine ⟨failure', herr', ?_⟩
    rw [hfails herr, hfails herr']
    simp only [Failure.mapPlace, Failure.mismatch, halike.skipBlanks.withoutBlanks_eq]

theorem corresponds_identifier : Corresponds id Token.identifier Token.identifier := by
  refine corresponds_of_failsWith (fun text text' name rest halike hr => ?_)
    Token.failsWith_identifier
  obtain ⟨rest', hbegins, hrest⟩ := halike.begins (Token.reads_identifier.mp hr)
  exact ⟨rest', Token.reads_identifier.mpr hbegins, hrest⟩

theorem corresponds_symbol (sign : String) (hmem : sign ∈ Token.signTexts) :
    Corresponds id (Token.symbol sign) (Token.symbol sign) := by
  refine corresponds_of_failsWith (fun text text' value rest halike hr => ?_)
    (Token.failsWith_symbol sign)
  obtain ⟨rfl, hbegins⟩ := (Token.reads_symbol hmem).mp hr
  obtain ⟨rest', hbegins', hrest⟩ := halike.begins hbegins
  exact ⟨rest', (Token.reads_symbol hmem).mpr ⟨rfl, hbegins'⟩, hrest⟩

theorem corresponds_keyword {name : String} (hname : Token.IsName name) :
    Corresponds id (Token.keyword name) (Token.keyword name) := by
  refine corresponds_of_failsWith (fun text text' value rest halike hr => ?_)
    (Token.failsWith_keyword name)
  obtain ⟨rfl, hbegins⟩ := (Token.reads_keyword hname).mp hr
  obtain ⟨rest', hbegins', hrest⟩ := halike.begins hbegins
  exact ⟨rest', (Token.reads_keyword hname).mpr ⟨rfl, hbegins'⟩, hrest⟩

theorem corresponds_endOfInput : Corresponds id Token.endOfInput Token.endOfInput := by
  refine corresponds_of_failsWith (fun text text' value rest halike hr => ?_)
    Token.failsWith_endOfInput
  obtain ⟨hblank, rfl⟩ := Token.reads_endOfInput.mp hr
  exact ⟨[], Token.reads_endOfInput.mpr ⟨halike.allBlank hblank, rfl⟩, .nil⟩

/-! ### Combinations -/

theorem corresponds_pure {view : α → γ} {value value' : α} (h : view value = view value') :
    Corresponds view (pure value) (pure value') := by
  constructor
  · intro text text' v rest halike hr
    obtain ⟨rfl, rfl⟩ := reads_pure.mp hr
    exact ⟨value', text', reads_pure.mpr ⟨rfl, rfl⟩, h, halike⟩
  · intro text text' failure halike herr
    cases herr

theorem Corresponds.bind {view : α → γ} {view' : β → δ} {rule rule' : Rule α}
    {next next' : α → Rule β} (h : Corresponds view rule rule')
    (hnext : ∀ value value', view value = view value' →
      Corresponds view' (next value) (next' value')) :
    Corresponds view' (rule >>= next) (rule' >>= next') := by
  constructor
  · intro text text' value rest halike hr
    obtain ⟨first, mid, hfirst, hr⟩ := reads_bind.mp hr
    obtain ⟨first', mid', hfirst', hview, hmid⟩ := h.reads halike hfirst
    obtain ⟨value', rest', hr', hvalue⟩ := (hnext first first' hview).reads hmid hr
    exact ⟨value', rest', reads_bind.mpr ⟨first', mid', hfirst', hr'⟩, hvalue⟩
  · intro text text' failure halike herr
    rcases bind_eq_error_iff.mp herr with herr | ⟨first, mid, hfirst, herr⟩
    · obtain ⟨failure', herr', hsame⟩ := h.fails halike herr
      exact ⟨failure', bind_eq_error_iff.mpr (.inl herr'), hsame⟩
    · obtain ⟨first', mid', hfirst', hview, hmid⟩ := h.reads halike hfirst
      obtain ⟨failure', herr', hsame⟩ := (hnext first first' hview).fails hmid herr
      exact ⟨failure', bind_eq_error_iff.mpr (.inr ⟨first', mid', hfirst', herr'⟩), hsame⟩

/-- The second rule of a sequence often sees the very value that the first one read. -/
theorem Corresponds.bind_id {view : β → δ} {rule : Rule α} {next next' : α → Rule β}
    (h : Corresponds id rule rule) (hnext : ∀ value, Corresponds view (next value) (next' value)) :
    Corresponds view (rule >>= next) (rule >>= next') := by
  refine h.bind fun value value' heq => ?_
  obtain rfl : value = value' := heq
  exact hnext value

theorem Corresponds.expected {view : α → γ} {rule rule' : Rule α} (h : Corresponds view rule rule')
    (label : String) : Corresponds view (expected label rule) (expected label rule') := by
  constructor
  · intro text text' value rest halike hr
    obtain ⟨value', rest', hr', hvalue⟩ := h.reads halike (reads_expected.mp hr)
    exact ⟨value', rest', reads_expected.mpr hr', hvalue⟩
  · intro text text' failure halike herr
    obtain ⟨inner, hinner, rfl⟩ := expected_eq_error_iff.mp herr
    obtain ⟨inner', herr', hsame⟩ := h.fails halike hinner
    refine ⟨inner'.relabel label, expected_eq_error_iff.mpr ⟨inner', herr', rfl⟩, ?_⟩
    exact congrArg (Failure.relabel label) hsame

theorem choice_pair_eq_error_iff {first second : Rule α} {text : List Char} {failure : Failure} :
    choice [first, second] text = .error failure ↔
      ∃ f g, first text = .error f ∧ second text = .error g ∧ failure = f.furthest g :=
  either_eq_error_iff

/-- The failure that got further still did so in a text that is alike. -/
theorem furthest_mapPlace {text text' : List Char} {f g f' g' : Failure}
    (hf : IsPlace text f.remaining) (hg : IsPlace text g.remaining)
    (hf' : IsPlace text' f'.remaining) (hg' : IsPlace text' g'.remaining)
    (hfirst : f.mapPlace withoutBlanks = f'.mapPlace withoutBlanks)
    (hsecond : g.mapPlace withoutBlanks = g'.mapPlace withoutBlanks) :
    (f.furthest g).mapPlace withoutBlanks = (f'.furthest g').mapPlace withoutBlanks := by
  have hfrem : withoutBlanks f.remaining = withoutBlanks f'.remaining :=
    congrArg Failure.remaining hfirst
  have hgrem : withoutBlanks g.remaining = withoutBlanks g'.remaining :=
    congrArg Failure.remaining hsecond
  have hiff : Text.byteLength f.remaining < Text.byteLength g.remaining ↔
      Text.byteLength f'.remaining < Text.byteLength g'.remaining := by
    rw [Text.byteLength_lt_iff_of_suffix hf.1 hg.1, Text.byteLength_lt_iff_of_suffix hf'.1 hg'.1,
      hf.length_lt_iff hg, hf'.length_lt_iff hg', hfrem, hgrem]
  unfold Failure.furthest
  by_cases hlt : Text.byteLength f.remaining < Text.byteLength g.remaining
  · rw [if_pos hlt, if_pos (hiff.mp hlt)]
    exact hfirst
  · rw [if_neg hlt, if_neg (fun h => hlt (hiff.mpr h))]
    exact hsecond

theorem Corresponds.choice_pair {view : α → γ} {first second : Rule α}
    (hfirst : Corresponds view first first) (hsecond : Corresponds view second second)
    (htracks : Tracks first) (htracks' : Tracks second) :
    Corresponds view (choice [first, second]) (choice [first, second]) := by
  constructor
  · intro text text' value rest halike hr
    rcases reads_choice_pair.mp hr with hr | ⟨hrefuses, hr⟩
    · obtain ⟨value', rest', hr', hvalue⟩ := hfirst.reads halike hr
      exact ⟨value', rest', reads_choice_pair.mpr (.inl hr'), hvalue⟩
    · obtain ⟨value', rest', hr', hvalue⟩ := hsecond.reads halike hr
      have hrefuses' := hfirst.refuses halike hrefuses
      exact ⟨value', rest', reads_choice_pair.mpr (.inr ⟨hrefuses', hr'⟩), hvalue⟩
  · intro text text' failure halike herr
    obtain ⟨f, g, hf, hg, rfl⟩ := choice_pair_eq_error_iff.mp herr
    obtain ⟨f', hf', hsame⟩ := hfirst.fails halike hf
    obtain ⟨g', hg', hsame'⟩ := hsecond.fails halike hg
    refine ⟨f'.furthest g', choice_pair_eq_error_iff.mpr ⟨f', g', hf', hg', rfl⟩, ?_⟩
    exact furthest_mapPlace (htracks.isPlace hf) (htracks'.isPlace hg) (htracks.isPlace hf')
      (htracks'.isPlace hg') hsame hsame'

theorem Corresponds.maybe {rule : Rule α} (h : Corresponds id rule rule) :
    Corresponds id (maybe rule) (maybe rule) := by
  constructor
  · intro text text' found rest halike hr
    cases found with
    | some value =>
      obtain ⟨value', rest', hr', hvalue, hrest⟩ := h.reads halike (reads_maybe_some.mp hr)
      exact ⟨some value', rest', reads_maybe_some.mpr hr', congrArg some hvalue, hrest⟩
    | none =>
      obtain ⟨hrefuses, rfl⟩ := reads_maybe_none.mp hr
      exact ⟨none, text', reads_maybe_none.mpr ⟨h.refuses halike hrefuses, rfl⟩, rfl, halike⟩
  · intro text text' failure halike herr
    unfold Rule.maybe at herr
    split at herr <;> cases herr

theorem Corresponds.repeats {view : α → γ} {rule : Rule α} (h : Corresponds view rule rule)
    {text text' rest : List Char} {values : List α} (hrepeats : Repeats rule text values rest)
    (halike : Alike text text') : ∃ values' rest', Repeats rule text' values' rest' ∧
      values.map view = values'.map view ∧ Alike rest rest' := by
  induction hrepeats generalizing text' with
  | stop hrefuses => exact ⟨[], text', .stop (h.refuses halike hrefuses), rfl, halike⟩
  | step hr _ ih =>
    obtain ⟨value', mid', hr', hvalue, hmid⟩ := h.reads halike hr
    obtain ⟨values', rest', hrepeats', hvalues, hrest⟩ := ih hmid
    refine ⟨value' :: values', rest', .step hr' hrepeats', ?_, hrest⟩
    rw [List.map_cons, List.map_cons, hvalue, hvalues]

theorem Corresponds.many {view : α → γ} {rule : Rule α} (h : Corresponds view rule rule)
    (hshrinks : Shrinks rule) : Corresponds (List.map view) (many rule) (many rule) := by
  constructor
  · intro text text' values rest halike hr
    obtain ⟨values', rest', hrepeats, hvalues⟩ :=
      h.repeats ((reads_many hshrinks).mp hr) halike
    exact ⟨values', rest', (reads_many hshrinks).mpr hrepeats, hvalues⟩
  · intro text text' failure halike herr
    cases herr

theorem Corresponds.sepBy1 {view : α → γ} {separator : Rule β} {rule : Rule α}
    (hseparator : Corresponds id separator separator) (h : Corresponds view rule rule)
    (hshrinks : Shrinks (do let _ ← separator; rule)) :
    Corresponds (List.map view) (sepBy1 separator rule) (sepBy1 separator rule) := by
  refine h.bind fun first first' hfirst => ?_
  refine ((hseparator.bind_id fun _ => h).many hshrinks).bind fun more more' hmore => ?_
  exact corresponds_pure (by rw [List.map_cons, List.map_cons, hfirst, hmore])

theorem Corresponds.sepBy {view : α → γ} {separator : Rule β} {rule : Rule α}
    (hseparator : Corresponds id separator separator) (h : Corresponds view rule rule)
    (hshrinks : Shrinks (do let _ ← separator; rule)) :
    Corresponds (List.map view) (sepBy separator rule) (sepBy separator rule) := by
  have hsepBy1 := hseparator.sepBy1 h hshrinks
  constructor
  · intro text text' values rest halike hr
    rcases reads_sepBy.mp hr with hr | ⟨hrefuses, rfl, rfl⟩
    · obtain ⟨values', rest', hr', hvalues⟩ := hsepBy1.reads halike hr
      exact ⟨values', rest', reads_sepBy.mpr (.inl hr'), hvalues⟩
    · have hrefuses' := hsepBy1.refuses halike hrefuses
      exact ⟨[], text', reads_sepBy.mpr (.inr ⟨hrefuses', rfl, rfl⟩), rfl, halike⟩
  · intro text text' failure halike herr
    unfold Rule.sepBy at herr
    split at herr <;> cases herr

/-- The value, with the text where it starts changed. -/
def Located.mapPlace (f : List Char → List Char) (view : α → α) (value : Located α) : Located α :=
  ⟨f value.start, view value.item⟩

theorem Corresponds.located {view : α → α} {rule : Rule α} (h : Corresponds view rule rule) :
    Corresponds (Located.mapPlace withoutBlanks view) (located rule) (located rule) := by
  constructor
  · intro text text' value rest halike hr
    obtain ⟨hstart, hr⟩ := reads_located.mp hr
    obtain ⟨item', rest', hr', hitem, hrest⟩ := h.reads halike.skipBlanks hr
    refine ⟨⟨Text.skipBlanks text', item'⟩, rest', reads_located.mpr ⟨rfl, hr'⟩, ?_, hrest⟩
    rw [Located.mapPlace, Located.mapPlace, hstart, hitem, halike.skipBlanks.withoutBlanks_eq]
  · intro text text' failure halike herr
    obtain ⟨failure', herr', hsame⟩ := h.fails halike.skipBlanks (located_eq_error_iff.mp herr)
    exact ⟨failure', located_eq_error_iff.mpr herr', hsame⟩

end Rule

/-! ## The rules of the grammar -/

namespace Grammar

open Rule Token

theorem corresponds_typeName : Corresponds id typeName typeName :=
  corresponds_identifier.bind_id fun _ => corresponds_pure rfl

section Types

variable {type : Rule TypeExpr}

theorem corresponds_parenthesizedOver (h : Corresponds id type type) (hshrinks : Shrinks type) :
    Corresponds id (parenthesizedOver type) (parenthesizedOver type) := by
  have hcomma := shrinks_comma_type hshrinks
  refine Corresponds.expected ?_ "a tuple"
  refine (corresponds_symbol "(" (by decide)).bind_id fun _ => ?_
  refine ((corresponds_symbol "," (by decide)).sepBy h hcomma).bind fun types types' heq => ?_
  obtain rfl : types = types' := by simpa using heq
  exact (corresponds_symbol ")" (by decide)).bind_id fun _ => corresponds_pure rfl

theorem corresponds_atomOver (h : Corresponds id type type) (hshrinks : Shrinks type)
    (htracks : Tracks type) : Corresponds id (atomOver type) (atomOver type) :=
  corresponds_typeName.choice_pair (corresponds_parenthesizedOver h hshrinks) tracks_typeName
    (tracks_parenthesizedOver htracks)

theorem corresponds_applicationOver (h : Corresponds id type type) (hsound : Sound .type type)
    (htracks : Tracks type) : Corresponds id (applicationOver type) (applicationOver type) := by
  have hatom := corresponds_atomOver h (hsound.shrinks nofun nofun) htracks
  refine corresponds_identifier.bind_id fun _ => ?_
  refine (hatom.many (hsound.atomOver.shrinks nofun nofun)).bind fun args args' heq => ?_
  obtain rfl : args = args' := by simpa using heq
  exact corresponds_pure rfl

theorem corresponds_arrowTailOver (h : Corresponds id type type) (domain : TypeExpr) :
    Corresponds id (arrowTailOver type domain) (arrowTailOver type domain) := by
  refine (corresponds_symbol "->" (by decide)).maybe.bind_id fun found => ?_
  cases found with
  | none => exact corresponds_pure rfl
  | some _ => exact (h.expected "a function type").bind_id fun _ => corresponds_pure rfl

theorem corresponds_typeExprOver (h : Corresponds id type type) (hsound : Sound .type type)
    (htracks : Tracks type) : Corresponds id (typeExprOver type) (typeExprOver type) := by
  have hatom := corresponds_atomOver h (hsound.shrinks nofun nofun) htracks
  have happlication := corresponds_applicationOver h hsound htracks
  exact (happlication.choice_pair hatom (tracks_applicationOver htracks)
    (tracks_atomOver htracks)).bind_id fun domain => corresponds_arrowTailOver h domain

end Types

theorem corresponds_typeExpr : Corresponds id typeExpr typeExpr := by
  have hname : Sound .type typeName := by
    intro text value rest hr
    obtain ⟨name, mid, hname, hr⟩ := reads_bind.mp hr
    obtain ⟨rfl, rfl⟩ := reads_pure.mp hr
    exact ⟨[word name], spells_singleton.mpr (reads_identifier.mp hname), .ofAtom .name⟩
  -- two texts are two inputs of the recursive rule, so bounding their lengths by one number gives a
  -- rule without recursion that does the same on both
  have hbounded := exists_agreeBelow
    (P := fun type => Sound .type type ∧ Tracks type ∧ Corresponds id type type)
    (fun _ _ h => agree_typeExprOver h sound_typeExpr) typeName
    ⟨hname, tracks_typeName, corresponds_typeName⟩
    fun type h => ⟨h.1.typeExprOver, tracks_typeExprOver h.2.1,
      corresponds_typeExprOver h.2.2 h.1 h.2.1⟩
  constructor
  · intro text text' value rest halike hr
    obtain ⟨type, ⟨-, -, h⟩, hagree⟩ := hbounded (text.length + text'.length + 1)
    have htext : type text = typeExpr text := hagree text (by omega)
    have htext' : type text' = typeExpr text' := hagree text' (by omega)
    obtain ⟨value', rest', hr', hvalue⟩ := h.reads halike (htext.trans hr)
    exact ⟨value', rest', htext'.symm.trans hr', hvalue⟩
  · intro text text' failure halike herr
    obtain ⟨type, ⟨-, -, h⟩, hagree⟩ := hbounded (text.length + text'.length + 1)
    have htext : type text = typeExpr text := hagree text (by omega)
    have htext' : type text' = typeExpr text' := hagree text' (by omega)
    obtain ⟨failure', herr', hsame⟩ := h.fails halike (htext.trans herr)
    exact ⟨failure', htext'.symm.trans herr', hsame⟩

theorem corresponds_member : Corresponds id member member :=
  (corresponds_atomOver corresponds_typeExpr shrinks_typeExpr tracks_typeExpr).bind_id fun domain =>
    (corresponds_arrowTailOver corresponds_typeExpr domain).bind_id fun _ => corresponds_pure rfl

theorem corresponds_field : Corresponds id field field :=
  corresponds_identifier.bind_id fun _ => (corresponds_symbol "::" (by decide)).bind_id fun _ =>
    corresponds_typeExpr.bind_id fun _ => corresponds_pure rfl

/-- The draft, with the texts where its members start changed. -/
def ConstructorDraft.mapPlaces (f : List Char → List Char) (draft : ConstructorDraft) :
    ConstructorDraft :=
  ⟨draft.name, draft.members.map (Located.mapPlace f id)⟩

/-- The draft, with the texts where its items start changed. -/
def DeclarationDraft.mapPlaces (f : List Char → List Char) (draft : DeclarationDraft) :
    DeclarationDraft :=
  ⟨draft.name, draft.parameters.map (Located.mapPlace f id),
    draft.constructors.map (Located.mapPlace f (ConstructorDraft.mapPlaces f))⟩

theorem corresponds_recordConstructor : Corresponds (ConstructorDraft.mapPlaces withoutBlanks)
    recordConstructor recordConstructor := by
  refine corresponds_identifier.bind_id fun name => ?_
  refine (corresponds_symbol openBrace (by decide)).bind_id fun _ => ?_
  refine ((corresponds_symbol "," (by decide)).sepBy1 corresponds_field.located
    (itemSound_field.located.shrinks_separated (by decide))).bind fun members members' hmembers => ?_
  refine (corresponds_symbol closeBrace (by decide)).bind_id fun _ => corresponds_pure ?_
  exact congrArg (ConstructorDraft.mk name) hmembers

theorem corresponds_positionalConstructor : Corresponds (ConstructorDraft.mapPlaces withoutBlanks)
    positionalConstructor positionalConstructor := by
  refine corresponds_identifier.bind_id fun name => ?_
  refine (corresponds_member.located.many shrinks_located_member).bind
    fun members members' hmembers => corresponds_pure ?_
  exact congrArg (ConstructorDraft.mk name) hmembers

theorem corresponds_constructorDraft : Corresponds (ConstructorDraft.mapPlaces withoutBlanks)
    constructorDraft constructorDraft :=
  corresponds_recordConstructor.choice_pair corresponds_positionalConstructor
    tracks_recordConstructor tracks_positionalConstructor

theorem corresponds_parameter : Corresponds id parameter parameter := by
  have hplain : Corresponds id plainParameter plainParameter :=
    corresponds_identifier.bind_id fun _ => corresponds_pure rfl
  have hbounded : Corresponds id boundedParameter boundedParameter :=
    (corresponds_symbol "(" (by decide)).bind_id fun _ => corresponds_identifier.bind_id fun _ =>
      (corresponds_symbol "::" (by decide)).bind_id fun _ => corresponds_typeExpr.bind_id fun _ =>
        (corresponds_symbol ")" (by decide)).bind_id fun _ => corresponds_pure rfl
  exact (hplain.choice_pair hbounded tracks_plainParameter tracks_boundedParameter).expected
    "a parameter"

theorem corresponds_declarationDraft : Corresponds (DeclarationDraft.mapPlaces withoutBlanks)
    declarationDraft declarationDraft := by
  refine (corresponds_keyword isName_data).bind_id fun _ => ?_
  refine corresponds_identifier.bind_id fun name => ?_
  refine (corresponds_parameter.located.many itemSound_parameter.located.shrinks).bind
    fun parameters parameters' hparameters => ?_
  refine (corresponds_symbol "=" (by decide)).bind_id fun _ => ?_
  refine ((corresponds_symbol "|" (by decide)).sepBy1 corresponds_constructorDraft.located
    (itemSound_constructorDraft.located.shrinks_separated (by decide))).bind
    fun constructors constructors' hconstructors => ?_
  refine corresponds_endOfInput.bind_id fun _ => corresponds_pure ?_
  rw [DeclarationDraft.mapPlaces, DeclarationDraft.mapPlaces, hparameters, hconstructors]

/-! ## The checks of names -/

theorem secondUse_map (f : List Char → List Char) (name : String)
    (uses : List (List Char × String)) :
    secondUse name (uses.map fun use => (f use.1, use.2)) = (secondUse name uses).map f := by
  simp only [secondUse, List.filter_map, List.getElem?_map, Option.map_map]
  rfl

/-- The check of a constructor only passes places on. -/
theorem ConstructorDraft.check_mapPlaces (f : List Char → List Char) (draft : ConstructorDraft)
    (start : List Char) :
    (draft.mapPlaces f).check (f start) = (draft.check start).mapError (Failure.mapPlace f) := by
  have hitems : (draft.mapPlaces f).members.map (·.item) = draft.members.map (·.item) := by
    simp [ConstructorDraft.mapPlaces, Located.mapPlace]
  have huses : (draft.mapPlaces f).fieldUses =
      draft.fieldUses.map fun use => (f use.1, use.2) := by
    simp [ConstructorDraft.fieldUses, ConstructorDraft.mapPlaces, Located.mapPlace,
      List.filterMap_map, List.map_filterMap, Function.comp_def]
  unfold ConstructorDraft.check
  rw [hitems, huses]
  change (Constructor.ofMembers draft.name _).mapError _ = _
  cases Constructor.ofMembers draft.name (draft.members.map (·.item)) with
  | ok c => rfl
  | error error =>
    refine congrArg Except.error ?_
    cases error with
    | duplicateField c field =>
      simp only [secondUse_map, Failure.invalid, Failure.mapPlace, Option.getD_map]
    | _ => rfl

/-- The check of a declaration only passes places on. -/
theorem DeclarationDraft.check_mapPlaces (f : List Char → List Char) (draft : DeclarationDraft)
    (start : List Char) :
    (draft.mapPlaces f).check (f start) = (draft.check start).mapError (Failure.mapPlace f) := by
  let check (c : Located ConstructorDraft) := c.item.check c.start
  have hcheck : ∀ c, check (c.mapPlace f (ConstructorDraft.mapPlaces f)) =
      (check c).mapError (Failure.mapPlace f) := fun c => c.item.check_mapPlaces f c.start
  have hconstructors : (draft.mapPlaces f).constructors.mapM check =
      (draft.constructors.mapM check).mapError (Failure.mapPlace f) := by
    rw [← Except.mapM_mapError, DeclarationDraft.mapPlaces, List.mapM_map]
    exact congrArg (List.mapM · draft.constructors) (funext hcheck)
  have hparameters : (draft.mapPlaces f).parameters.map (·.item) =
      draft.parameters.map (·.item) := by
    simp [DeclarationDraft.mapPlaces, Located.mapPlace]
  have hparameterUses : (draft.mapPlaces f).parameterUses =
      draft.parameterUses.map fun use => (f use.1, use.2) := by
    simp [DeclarationDraft.parameterUses, DeclarationDraft.mapPlaces, Located.mapPlace]
  have hconstructorUses : (draft.mapPlaces f).constructorUses =
      draft.constructorUses.map fun use => (f use.1, use.2) := by
    simp [DeclarationDraft.constructorUses, DeclarationDraft.mapPlaces, Located.mapPlace,
      ConstructorDraft.mapPlaces]
  unfold DeclarationDraft.check
  rw [hconstructors, hparameters, hparameterUses, hconstructorUses]
  cases draft.constructors.mapM fun c => c.item.check c.start with
  | error failure => rfl
  | ok constructors =>
    change (Declaration.ofConstructors draft.name _ _).mapError _ =
      ((Declaration.ofConstructors draft.name _ _).mapError _).mapError _
    cases Declaration.ofConstructors draft.name (draft.parameters.map (·.item)) constructors with
    | ok d => rfl
    | error error =>
      refine congrArg Except.error ?_
      cases error with
      | duplicateParameter d name =>
        simp only [secondUse_map, Failure.invalid, Failure.mapPlace, Option.getD_map]
      | duplicateConstructor d name =>
        simp only [secondUse_map, Failure.invalid, Failure.mapPlace, Option.getD_map]
      | _ => rfl

/-- The parser does the same on texts that are alike. -/
theorem parse_of_alike {source source' : String} (h : Alike source.toList source'.toList) :
    (parse source).mapError (Failure.mapPlace withoutBlanks) =
      (parse source').mapError (Failure.mapPlace withoutBlanks) := by
  have hlabel : ∀ result : Except Failure Declaration,
      (result.mapError (·.relabel "a data declaration")).mapError (Failure.mapPlace withoutBlanks) =
        (result.mapError (Failure.mapPlace withoutBlanks)).mapError
          (·.relabel "a data declaration") := by
    intro result
    cases result <;> rfl
  rw [parse_eq, parse_eq, hlabel, hlabel]
  refine congrArg _ ?_
  cases hdraft : declarationDraft source.toList with
  | error failure =>
    obtain ⟨failure', herr', hsame⟩ := corresponds_declarationDraft.fails h hdraft
    rw [herr']
    exact congrArg Except.error hsame
  | ok success =>
    obtain ⟨draft', rest', hr', hsame, -⟩ := corresponds_declarationDraft.reads h hdraft
    rw [show declarationDraft source'.toList = .ok (draft', rest') from hr']
    change (success.1.check _).mapError _ = (draft'.check _).mapError _
    rw [← DeclarationDraft.check_mapPlaces, ← DeclarationDraft.check_mapPlaces, hsame,
      h.skipBlanks.withoutBlanks_eq]

end Grammar

/-- Changes of the layout, one after another, change nothing that the parser does. -/
theorem mapError_parse_of_relays {source source' : String}
    (h : Relation.ReflTransGen Relays source.toList source'.toList) :
    (parse source).mapError (Failure.mapPlace withoutBlanks) =
      (parse source').mapError (Failure.mapPlace withoutBlanks) := by
  rw [← String.ofList_toList (s := source')]
  generalize source'.toList = text' at h ⊢
  induction h with
  | refl => rw [String.ofList_toList]
  | tail _ hstep ih =>
    refine ih.trans (Grammar.parse_of_alike ?_)
    rw [String.toList_ofList, String.toList_ofList]
    exact .of_relays hstep

/-- However a text is laid out, the parser reads the same declaration from it, or fails to with the
same label, for the same reason and in front of the same characters. -/
theorem layout_irrelevant {source source' : String}
    (h : Relation.ReflTransGen Relays source.toList source'.toList) :
    (∃ d, parse source = .ok d ∧ parse source' = .ok d) ∨
      ∃ failure failure', parse source = .error failure ∧ parse source' = .error failure' ∧
        failure.expected = failure'.expected ∧ failure.reason = failure'.reason ∧
        withoutBlanks failure.remaining = withoutBlanks failure'.remaining := by
  have hsame := mapError_parse_of_relays h
  cases hparse : parse source with
  | ok d =>
    rw [hparse] at hsame
    exact .inl ⟨d, rfl, Except.mapError_eq_ok_iff.mp hsame.symm⟩
  | error failure =>
    cases hparse' : parse source' with
    | ok d =>
      rw [hparse, hparse'] at hsame
      cases hsame
    | error failure' =>
      rw [hparse, hparse'] at hsame
      obtain ⟨hexpected, hremaining, hreason⟩ := Failure.mk.inj (Except.error.inj hsame)
      exact .inr ⟨failure, failure', rfl, rfl, hexpected, hreason, hremaining⟩

/-- A field without a type is given back with its record in every layout. -/
theorem untyped_field_layout_irrelevant :
    Relation.ReflTransGen Relays "data P=P{x::}".toList "data\t P = P{x::}\n".toList ∧
      parse "data P=P{x::}" = .error ⟨"a data declaration", "{x::}".toList, none⟩ ∧
      ∃ remaining, withoutBlanks remaining = "{x::}".toList ∧
        parse "data\t P = P{x::}\n" = .error ⟨"a data declaration", remaining, none⟩ := by
  have hspace : AllBlank " ".toList := List.forall_mem_singleton.mpr (by decide)
  have htab : AllBlank "\t ".toList := List.forall_mem_cons.mpr ⟨by decide, hspace⟩
  have hline : AllBlank "\n".toList := List.forall_mem_singleton.mpr (by decide)
  have hrelays : Relation.ReflTransGen Relays "data P=P{x::}".toList
      "data\t P = P{x::}\n".toList := by
    refine .head (@Relays.replace "data".toList _ _ "P=P{x::}".toList hspace htab
      (by decide) (by decide)) ?_
    refine .head (@Relays.before "data\t P".toList _ "P{x::}".toList '=' hspace (by decide)) ?_
    refine .head (@Relays.after "data\t P ".toList _ "P{x::}".toList '=' hspace (by decide)) ?_
    exact .single (@Relays.last _ "data\t P = P{x::}".toList hline)
  have hparse : parse "data P=P{x::}" =
      .error ⟨"a data declaration", "{x::}".toList, none⟩ := by
    cbv
  refine ⟨hrelays, hparse, ?_⟩
  rcases layout_irrelevant hrelays with ⟨d, hd, -⟩ | ⟨failure, failure', hf, hf', hsame⟩
  · cases hparse.symm.trans hd
  · obtain rfl := Except.error.inj (hparse.symm.trans hf)
    obtain ⟨hexpected, hreason, hremaining⟩ := hsame
    refine ⟨failure'.remaining, ?_, ?_⟩
    · rw [← hremaining]
      decide
    · rw [hf']
      cases failure'
      subst hexpected hreason
      rfl

end AlgebraicData
