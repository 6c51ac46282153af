import AlgebraicData.Proofs.Grammar.Declaration
import AlgebraicData.Proofs.Text.Position

/-!
# Where reading fails

A failure keeps the text that remained.  It tells a place only if that text is the end of the text
that was to be read.

* `Rule.Tracks` — a rule leaves an end of its text, and fails at a place of it, in front of a
  character that is not a blank.  Every way of combining rules keeps this, so all rules of the
  grammar have it.
* `DeclarationDraft.Fails` — how the checks of names fail once the whole text has been read.  They
  point at items that were read, and items remember places.
* So every failure of the parser is at a place of the text, which can be counted in bytes, or in
  lines and columns.
-/

namespace AlgebraicData

/-- The place is in the text, and what stands there is not a blank. -/
def IsPlace (text place : List Char) : Prop :=
  place <:+ text ∧ ∀ c ∈ place.head?, Text.isBlank c = false

theorem IsPlace.of_suffix {text rest place : List Char} (h : IsPlace rest place)
    (hrest : rest <:+ text) : IsPlace text place :=
  ⟨h.1.trans hrest, h.2⟩

theorem isPlace_skipBlanks (text : List Char) : IsPlace text (Text.skipBlanks text) := by
  refine ⟨List.dropWhile_suffix _, fun c hc => ?_⟩
  have hhead := List.head?_dropWhile_not Text.isBlank text
  rw [Text.skipBlanks, Option.mem_def] at hc
  simpa [hc] using hhead

/-! ## Rules keep track of places -/

namespace Rule

variable {α β : Type}

/-- A success leaves an end of the text, and a failure is at a place of the text. -/
def StaysIn (text : List Char) : Except Failure (α × List Char) → Prop
  | .ok (_, rest) => rest <:+ text
  | .error failure => IsPlace text failure.remaining

/-- The rule stays in the text, whatever the text is. -/
def Tracks (rule : Rule α) : Prop :=
  ∀ text, StaysIn text (rule text)

theorem StaysIn.of_suffix {text rest : List Char} {result : Except Failure (α × List Char)}
    (h : StaysIn rest result) (hrest : rest <:+ text) : StaysIn text result := by
  cases result with
  | ok success => exact List.IsSuffix.trans h hrest
  | error failure => exact IsPlace.of_suffix h hrest

theorem Tracks.suffix {rule : Rule α} (h : Tracks rule) {text rest : List Char} {value : α}
    (hr : Reads rule text value rest) : rest <:+ text := by
  have hstays := h text
  rwa [show rule text = .ok (value, rest) from hr] at hstays

theorem Tracks.isPlace {rule : Rule α} (h : Tracks rule) {text : List Char} {failure : Failure}
    (herr : rule text = .error failure) : IsPlace text failure.remaining := by
  have hstays := h text
  rwa [herr] at hstays

/-! ### Sequence and labels -/

theorem bind_eq_error_iff {rule : Rule α} {next : α → Rule β} {text : List Char}
    {failure : Failure} :
    (rule >>= next) text = .error failure ↔ rule text = .error failure ∨
      ∃ value mid, Reads rule text value mid ∧ next value mid = .error failure := by
  rw [bind_apply]
  cases hr : rule text with
  | error failure' => simp [Reads, hr]
  | ok success =>
    constructor
    · exact fun h => .inr ⟨success.1, success.2, hr, h⟩
    · rintro (h | ⟨value, mid, hread, h⟩)
      · cases h
      · obtain rfl : success = (value, mid) := Except.ok.inj (hr.symm.trans hread)
        exact h

theorem expected_eq_error_iff {label : String} {rule : Rule α} {text : List Char}
    {failure : Failure} :
    expected label rule text = .error failure ↔
      ∃ inner, rule text = .error inner ∧ failure = inner.relabel label := by
  rw [expected]
  cases hr : rule text with
  | error inner => simp [Except.mapError, eq_comm]
  | ok success => simp [Except.mapError]

/-- A list with separators fails exactly as its first item does. -/
theorem sepBy1_eq_error_iff {separator : Rule β} {rule : Rule α} {text : List Char}
    {failure : Failure} :
    sepBy1 separator rule text = .error failure ↔ rule text = .error failure := by
  rw [sepBy1, bind_eq_error_iff, or_iff_left]
  rintro ⟨first, mid, -, h⟩
  cases h

theorem located_eq_error_iff {rule : Rule α} {text : List Char} {failure : Failure} :
    located rule text = .error failure ↔ rule (Text.skipBlanks text) = .error failure := by
  change (do let item ← rule; pure ⟨Text.skipBlanks text, item⟩ : Rule (Located α))
    (Text.skipBlanks text) = .error failure ↔ _
  rw [bind_eq_error_iff, or_iff_left]
  rintro ⟨item, mid, -, h⟩
  cases h

theorem tracks_pure (value : α) : Tracks (pure value) :=
  fun text => List.suffix_refl text

theorem Tracks.bind {rule : Rule α} {next : α → Rule β} (h : Tracks rule)
    (hnext : ∀ value, Tracks (next value)) : Tracks (rule >>= next) := by
  intro text
  have hstays := h text
  rw [bind_apply]
  cases hr : rule text with
  | error failure => rwa [hr] at hstays
  | ok success =>
    rw [hr] at hstays
    exact (hnext success.1 success.2).of_suffix hstays

theorem Tracks.expected {rule : Rule α} (h : Tracks rule) (label : String) :
    Tracks (expected label rule) := by
  intro text
  have hstays := h text
  rw [Rule.expected]
  cases hr : rule text with
  | error failure => rwa [hr] at hstays
  | ok success => rwa [hr] at hstays

theorem furthest_eq_or (first second : Failure) :
    first.furthest second = first ∨ first.furthest second = second := by
  unfold Failure.furthest
  split
  · exact .inl rfl
  · exact .inr rfl

theorem Tracks.choice_pair {first second : Rule α} (hfirst : Tracks first)
    (hsecond : Tracks second) : Tracks (choice [first, second]) := by
  intro text
  change StaysIn text (either first second text)
  have hstays := hfirst text
  have hstays' := hsecond text
  unfold either
  cases hf : first text with
  | ok success => rwa [hf] at hstays
  | error failure =>
    rw [hf] at hstays
    cases hs : second text with
    | ok success => rwa [hs] at hstays'
    | error failure' =>
      rw [hs] at hstays'
      rcases furthest_eq_or failure failure' with heq | heq
      · simpa only [Except.mapError, heq] using hstays
      · simpa only [Except.mapError, heq] using hstays'

theorem Tracks.maybe {rule : Rule α} (h : Tracks rule) : Tracks (maybe rule) := by
  intro text
  have hstays := h text
  rw [Rule.maybe]
  cases hr : rule text with
  | error failure => exact List.suffix_refl text
  | ok success => rwa [hr] at hstays

theorem Tracks.suffix_collect {rule : Rule α} (h : Tracks rule) (text : List Char) :
    (collect rule text).2 <:+ text := by
  fun_induction collect rule text with
  | case1 text => exact List.suffix_refl text
  | case2 text value mid hr _ values rest hc ih =>
    rw [hc] at ih
    exact ih.trans (h.suffix hr)
  | case3 text => exact List.suffix_refl text

theorem Tracks.many {rule : Rule α} (h : Tracks rule) : Tracks (many rule) :=
  fun text => h.suffix_collect text

theorem Tracks.sepBy1 {separator : Rule β} {rule : Rule α} (hsep : Tracks separator)
    (h : Tracks rule) : Tracks (sepBy1 separator rule) :=
  h.bind fun _ => (hsep.bind fun _ => h).many.bind fun _ => tracks_pure _

theorem Tracks.sepBy {separator : Rule β} {rule : Rule α} (hsep : Tracks separator)
    (h : Tracks rule) : Tracks (sepBy separator rule) := by
  intro text
  have hstays := hsep.sepBy1 h text
  rw [Rule.sepBy]
  cases hr : Rule.sepBy1 separator rule text with
  | error failure => exact List.suffix_refl text
  | ok success => rwa [hr] at hstays

theorem Tracks.located {rule : Rule α} (h : Tracks rule) : Tracks (located rule) := by
  intro text
  have hstays : StaysIn (Text.skipBlanks text)
      ((do let item ← rule; pure ⟨Text.skipBlanks text, item⟩ : Rule (Located α))
        (Text.skipBlanks text)) :=
    h.bind (fun _ => tracks_pure _) (Text.skipBlanks text)
  exact hstays.of_suffix (isPlace_skipBlanks text).1

/-- The values of a repetition are read from ends of the text. -/
theorem Tracks.exists_reads_of_many {rule : Rule α} (h : Tracks rule) {text rest : List Char}
    {values : List α} (hr : Reads (Rule.many rule) text values rest) :
    ∀ value ∈ values, ∃ text' rest', text' <:+ text ∧ Reads rule text' value rest' := by
  have heq : collect rule text = (values, rest) := Except.ok.inj hr
  clear hr
  fun_induction collect rule text generalizing values with
  | case1 text =>
    obtain rfl := (Prod.mk.inj heq).1
    exact List.forall_mem_nil _
  | case2 text value mid hr _ more last hc ih =>
    obtain ⟨rfl, rfl⟩ := Prod.mk.inj heq
    refine List.forall_mem_cons.mpr ⟨⟨text, mid, List.suffix_refl text, hr⟩, fun v hv => ?_⟩
    obtain ⟨text', rest', hsuffix, hr'⟩ := ih hc v hv
    exact ⟨text', rest', hsuffix.trans (h.suffix hr), hr'⟩
  | case3 text value mid hr =>
    obtain ⟨rfl, rfl⟩ := Prod.mk.inj heq
    exact List.forall_mem_singleton.mpr ⟨text, mid, List.suffix_refl text, hr⟩

theorem Tracks.exists_reads_of_sepBy1 {separator : Rule β} {rule : Rule α}
    (hsep : Tracks separator) (h : Tracks rule) {text rest : List Char} {values : List α}
    (hr : Reads (Rule.sepBy1 separator rule) text values rest) :
    ∀ value ∈ values, ∃ text' rest', text' <:+ text ∧ Reads rule text' value rest' := by
  obtain ⟨first, mid, hfirst, hr⟩ := reads_bind.mp hr
  obtain ⟨more, last, hmore, hr⟩ := reads_bind.mp hr
  obtain ⟨rfl, rfl⟩ := reads_pure.mp hr
  refine List.forall_mem_cons.mpr ⟨⟨text, mid, List.suffix_refl text, hfirst⟩, fun v hv => ?_⟩
  obtain ⟨text', rest', hsuffix, hr'⟩ := (hsep.bind fun _ => h).exists_reads_of_many hmore v hv
  obtain ⟨_, after, hseparator, hr''⟩ := reads_bind.mp hr'
  exact ⟨after, rest', (hsep.suffix hseparator).trans (hsuffix.trans (h.suffix hfirst)), hr''⟩

end Rule

/-! ## The rules of the grammar -/

namespace Token

open Rule

theorem tracks_identifier : Tracks identifier := by
  intro text
  have hplace := isPlace_skipBlanks text
  unfold identifier
  dsimp only
  split
  · exact hplace
  · split
    · exact (List.dropWhile_suffix _).trans hplace.1
    · exact hplace

theorem suffix_of_textAfter? {word text rest : List Char} (h : textAfter? word text = some rest) :
    rest <:+ text := by
  rw [textAfter?_eq_some_iff.mp h]
  exact List.suffix_append word rest

theorem tracks_symbol (sign : String) : Tracks (symbol sign) := by
  intro text
  have hplace := isPlace_skipBlanks text
  unfold symbol
  dsimp only
  split
  · rename_i rest hafter
    exact (suffix_of_textAfter? hafter).trans hplace.1
  · exact hplace

theorem tracks_keyword (word : String) : Tracks (keyword word) := by
  intro text
  have hplace := isPlace_skipBlanks text
  unfold keyword
  dsimp only
  split
  · rename_i rest hafter
    split
    · exact hplace
    · exact (suffix_of_textAfter? hafter).trans hplace.1
  · exact hplace

theorem tracks_endOfInput : Tracks endOfInput := by
  intro text
  have hplace := isPlace_skipBlanks text
  unfold endOfInput
  split
  · exact List.nil_suffix
  · exact hplace

/-- A failure of the rule says nothing but where it is: at the first character that is not a
blank. -/
def FailsWith {α : Type} (rule : Rule α) (failureAt : List Char → Failure) : Prop :=
  ∀ ⦃text failure⦄, rule text = .error failure → failure = failureAt (Text.skipBlanks text)

theorem FailsWith.remaining_eq {α : Type} {rule : Rule α} {label : String}
    (h : FailsWith rule (.mismatch label)) {text : List Char} {failure : Failure}
    (herr : rule text = .error failure) : failure.remaining = Text.skipBlanks text := by
  rw [h herr, Failure.mismatch]

theorem FailsWith.reason_eq {α : Type} {rule : Rule α} {label : String}
    (h : FailsWith rule (.mismatch label)) {text : List Char} {failure : Failure}
    (herr : rule text = .error failure) : failure.reason = none := by
  rw [h herr, Failure.mismatch]

theorem failsWith_identifier : FailsWith identifier (.mismatch "an identifier") := by
  intro text failure h
  unfold identifier at h
  dsimp only at h
  split at h
  · exact (Except.error.inj h).symm
  · split at h
    · cases h
    · exact (Except.error.inj h).symm

theorem failsWith_symbol (sign : String) : FailsWith (symbol sign) (notFound sign) := by
  intro text failure h
  unfold symbol at h
  dsimp only at h
  split at h
  · cases h
  · exact (Except.error.inj h).symm

theorem failsWith_keyword (word : String) : FailsWith (keyword word) (notFound word) := by
  intro text failure h
  unfold keyword at h
  dsimp only at h
  split at h
  · split at h
    · exact (Except.error.inj h).symm
    · cases h
  · exact (Except.error.inj h).symm

theorem failsWith_endOfInput : FailsWith endOfInput (.mismatch "end of input") := by
  intro text failure h
  unfold endOfInput at h
  split at h
  · cases h
  · exact (Except.error.inj h).symm

end Token

namespace Grammar

open Rule Token

theorem tracks_typeName : Tracks typeName :=
  tracks_identifier.bind fun _ => tracks_pure _

section Types

variable {type : Rule TypeExpr}

theorem tracks_parenthesizedOver (h : Tracks type) : Tracks (parenthesizedOver type) := by
  refine Tracks.expected ?_ "a tuple"
  refine (tracks_symbol "(").bind fun _ => ?_
  refine ((tracks_symbol ",").sepBy h).bind fun _ => ?_
  exact (tracks_symbol ")").bind fun _ => tracks_pure _

theorem tracks_atomOver (h : Tracks type) : Tracks (atomOver type) :=
  tracks_typeName.choice_pair (tracks_parenthesizedOver h)

theorem tracks_applicationOver (h : Tracks type) : Tracks (applicationOver type) :=
  tracks_identifier.bind fun _ => (tracks_atomOver h).many.bind fun _ => tracks_pure _

theorem tracks_arrowTailOver (h : Tracks type) (domain : TypeExpr) :
    Tracks (arrowTailOver type domain) := by
  refine (tracks_symbol "->").maybe.bind fun found => ?_
  cases found with
  | none => exact tracks_pure _
  | some _ => exact (h.expected "a function type").bind fun _ => tracks_pure _

theorem tracks_typeExprOver (h : Tracks type) : Tracks (typeExprOver type) :=
  ((tracks_applicationOver h).choice_pair (tracks_atomOver h)).bind fun domain =>
    tracks_arrowTailOver h domain

end Types

theorem tracks_typeExpr : Tracks typeExpr :=
  forall_recursive (fun _ _ h => agree_typeExprOver h sound_typeExpr) typeName tracks_typeName
    fun _ h => tracks_typeExprOver h

theorem tracks_member : Tracks member :=
  (tracks_atomOver tracks_typeExpr).bind fun domain =>
    (tracks_arrowTailOver tracks_typeExpr domain).bind fun _ => tracks_pure _

theorem tracks_field : Tracks field :=
  tracks_identifier.bind fun _ => (tracks_symbol "::").bind fun _ =>
    tracks_typeExpr.bind fun _ => tracks_pure _

theorem tracks_recordConstructor : Tracks recordConstructor :=
  tracks_identifier.bind fun _ => (tracks_symbol openBrace).bind fun _ =>
    ((tracks_symbol ",").sepBy1 tracks_field.located).bind fun _ =>
      (tracks_symbol closeBrace).bind fun _ => tracks_pure _

theorem tracks_positionalConstructor : Tracks positionalConstructor :=
  tracks_identifier.bind fun _ => tracks_member.located.many.bind fun _ => tracks_pure _

theorem tracks_constructorDraft : Tracks constructorDraft :=
  tracks_recordConstructor.choice_pair tracks_positionalConstructor

theorem tracks_plainParameter : Tracks plainParameter :=
  tracks_identifier.bind fun _ => tracks_pure _

theorem tracks_boundedParameter : Tracks boundedParameter :=
  (tracks_symbol "(").bind fun _ => tracks_identifier.bind fun _ =>
    (tracks_symbol "::").bind fun _ => tracks_typeExpr.bind fun _ =>
      (tracks_symbol ")").bind fun _ => tracks_pure _

theorem tracks_parameter : Tracks parameter :=
  (tracks_plainParameter.choice_pair tracks_boundedParameter).expected "a parameter"

theorem tracks_declarationDraft : Tracks declarationDraft :=
  (tracks_keyword "data").bind fun _ => tracks_identifier.bind fun _ =>
    tracks_parameter.located.many.bind fun _ => (tracks_symbol "=").bind fun _ =>
      ((tracks_symbol "|").sepBy1 tracks_constructorDraft.located).bind fun _ =>
        tracks_endOfInput.bind fun _ => tracks_pure _

/-! ## The places that a draft remembers -/

/-- Where the members of the constructor start. -/
def ConstructorDraft.places (draft : ConstructorDraft) : List (List Char) :=
  draft.members.map (·.start)

/-- Where the parameters, the constructors and the members of these start. -/
def DeclarationDraft.places (draft : DeclarationDraft) : List (List Char) :=
  draft.parameters.map (·.start) ++
    draft.constructors.flatMap fun c => c.start :: c.item.places

theorem isPlace_start {α : Type} {rule : Rule α} {text rest : List Char} {value : Located α}
    (h : Reads (located rule) text value rest) : IsPlace text value.start := by
  rw [(reads_located.mp h).1]
  exact isPlace_skipBlanks text

theorem ConstructorDraft.isPlace_of_mem {text rest : List Char} {draft : ConstructorDraft}
    (h : Reads constructorDraft text draft rest) :
    ∀ place ∈ draft.places, IsPlace text place := by
  refine List.forall_mem_map.mpr fun m hm => ?_
  rcases reads_choice_pair.mp h with h | ⟨-, h⟩
  · obtain ⟨name, mid, hname, h⟩ := reads_bind.mp h
    obtain ⟨_, mid', hopen, h⟩ := reads_bind.mp h
    obtain ⟨members, mid'', hmembers, h⟩ := reads_bind.mp h
    obtain ⟨_, last, -, h⟩ := reads_bind.mp h
    obtain ⟨rfl, rfl⟩ := reads_pure.mp h
    obtain ⟨text', rest', hsuffix, hr⟩ :=
      Tracks.exists_reads_of_sepBy1 (tracks_symbol ",") tracks_field.located hmembers m hm
    refine (isPlace_start hr).of_suffix (hsuffix.trans ?_)
    exact ((tracks_symbol _).suffix hopen).trans (tracks_identifier.suffix hname)
  · obtain ⟨name, mid, hname, h⟩ := reads_bind.mp h
    obtain ⟨members, last, hmembers, h⟩ := reads_bind.mp h
    obtain ⟨rfl, rfl⟩ := reads_pure.mp h
    obtain ⟨text', rest', hsuffix, hr⟩ :=
      tracks_member.located.exists_reads_of_many hmembers m hm
    exact (isPlace_start hr).of_suffix (hsuffix.trans (tracks_identifier.suffix hname))

theorem DeclarationDraft.isPlace_of_mem {text rest : List Char} {draft : DeclarationDraft}
    (h : Reads declarationDraft text draft rest) :
    ∀ place ∈ draft.places, IsPlace text place := by
  obtain ⟨_, mid, hdata, h⟩ := reads_bind.mp h
  obtain ⟨name, mid', hname, h⟩ := reads_bind.mp h
  obtain ⟨parameters, mid'', hparameters, h⟩ := reads_bind.mp h
  obtain ⟨_, after, hequals, h⟩ := reads_bind.mp h
  obtain ⟨constructors, last, hconstructors, h⟩ := reads_bind.mp h
  obtain ⟨_, rest', -, h⟩ := reads_bind.mp h
  obtain ⟨rfl, rfl⟩ := reads_pure.mp h
  -- every step leaves an end of what the step before has left
  have hhead : mid' <:+ text :=
    (tracks_identifier.suffix hname).trans ((tracks_keyword _).suffix hdata)
  have hbody : after <:+ text :=
    ((tracks_symbol _).suffix hequals).trans
      ((tracks_parameter.located.many.suffix hparameters).trans hhead)
  refine List.forall_mem_append.mpr ⟨List.forall_mem_map.mpr fun p hp => ?_, ?_⟩
  · obtain ⟨text', rest', hsuffix, hr⟩ :=
      tracks_parameter.located.exists_reads_of_many hparameters p hp
    exact (isPlace_start hr).of_suffix (hsuffix.trans hhead)
  · refine List.forall_mem_flatMap.mpr fun c hc => ?_
    obtain ⟨text', rest', hsuffix, hr⟩ := Tracks.exists_reads_of_sepBy1 (tracks_symbol "|")
      tracks_constructorDraft.located hconstructors c hc
    have hstart := (isPlace_start hr).of_suffix (hsuffix.trans hbody)
    refine List.forall_mem_cons.mpr ⟨hstart, fun place hplace => ?_⟩
    obtain ⟨heq, hr⟩ := reads_located.mp hr
    -- members lie behind the start of their constructor
    rw [← heq] at hr
    exact (ConstructorDraft.isPlace_of_mem hr place hplace).of_suffix hstart.1

/-! ## How checks fail -/

theorem exists_of_secondUse {name : String} {uses : List (List Char × String)}
    {place : List Char} (h : secondUse name uses = some place) : ∃ use ∈ uses, use.1 = place := by
  obtain ⟨use, huse, rfl⟩ := Option.map_eq_some_iff.mp h
  exact ⟨use, (List.mem_filter.mp (List.mem_of_getElem? huse)).1, rfl⟩

theorem getD_secondUse_mem {places : List (List Char)} {name : String}
    {uses : List (List Char × String)} (huses : ∀ use ∈ uses, use.1 ∈ places)
    (start : List Char) : (secondUse name uses).getD start ∈ start :: places := by
  cases h : secondUse name uses with
  | none => exact List.mem_cons_self
  | some place =>
    obtain ⟨use, huse, rfl⟩ := exists_of_secondUse h
    exact List.mem_cons_of_mem _ (huses use huse)

/-- The ways in which the check of a constructor fails. -/
inductive ConstructorDraft.Fails (draft : ConstructorDraft) (start : List Char) : Failure → Prop where
  | mixed : ¬ Uniform draft.view.2 → Fails draft start (.invalid (.mixedMembers draft.name) start)
  | field {field : String} : firstRepeated? (fieldNames draft.view.2) = some field →
      Fails draft start (.invalid (.duplicateField draft.name field)
        ((secondUse field draft.fieldUses).getD start))

theorem ConstructorDraft.fails_of_check {draft : ConstructorDraft} {start : List Char}
    {failure : Failure} (h : draft.check start = .error failure) : draft.Fails start failure := by
  obtain ⟨error, herror, rfl⟩ := Except.mapError_eq_error_iff.mp h
  cases ((Constructor.ofMembers_decided _ _).2 error).mp herror with
  | mixed hnamed hpositional => exact .mixed (not_uniform_iff.mpr ⟨hnamed, hpositional⟩)
  | field _ hfield => exact .field (firstRepeated?_eq_some_iff.mpr hfield)

/-- The ways in which the check of a declaration fails, in the order in which they are tried. -/
inductive DeclarationDraft.Fails (draft : DeclarationDraft) (start : List Char) : Failure → Prop where
  | constructor {before after : List (Located ConstructorDraft)} {c : Located ConstructorDraft}
      {failure : Failure} : draft.constructors = before ++ c :: after →
      (∀ b ∈ before, ∃ checked, b.item.check b.start = .ok checked) →
      c.item.Fails c.start failure → Fails draft start failure
  | empty : draft.constructors = [] →
      Fails draft start (.invalid (.noConstructors draft.name) start)
  | parameter {name : String} :
      (∀ c ∈ draft.constructors, ∃ checked, c.item.check c.start = .ok checked) →
      firstRepeated? (draft.parameters.map (·.item.name)) = some name →
      Fails draft start (.invalid (.duplicateParameter draft.name name)
        ((secondUse name draft.parameterUses).getD start))
  | constructorName {name : String} :
      (∀ c ∈ draft.constructors, ∃ checked, c.item.check c.start = .ok checked) →
      firstRepeated? (draft.parameters.map (·.item.name)) = none →
      firstRepeated? (draft.constructors.map (·.item.name)) = some name →
      Fails draft start (.invalid (.duplicateConstructor draft.name name)
        ((secondUse name draft.constructorUses).getD start))

theorem exists_check_of_mapM {drafts : List (Located ConstructorDraft)}
    {constructors : List Constructor}
    (h : drafts.mapM (fun c => c.item.check c.start) = .ok constructors) :
    ∀ c ∈ drafts, ∃ checked, c.item.check c.start = .ok checked := by
  intro c hc
  have hviews := mapM_check_eq_ok_iff.mp h
  have hview : c.item.view ∈ constructors.map fun c => (c.name, c.members) :=
    hviews ▸ List.mem_map_of_mem hc
  obtain ⟨checked, -, heq⟩ := List.mem_map.mp hview
  exact ⟨checked, ConstructorDraft.check_eq_ok_iff.mpr heq⟩

theorem map_name_of_mapM {drafts : List (Located ConstructorDraft)}
    {constructors : List Constructor}
    (h : drafts.mapM (fun c => c.item.check c.start) = .ok constructors) :
    constructors.map (·.name) = drafts.map (·.item.name) := by
  have hfirst := congrArg (List.map Prod.fst) (mapM_check_eq_ok_iff.mp h)
  simp only [List.map_map] at hfirst
  exact hfirst

theorem DeclarationDraft.fails_of_check {draft : DeclarationDraft} {start : List Char}
    {failure : Failure} (h : draft.check start = .error failure) : draft.Fails start failure := by
  unfold DeclarationDraft.check at h
  cases hmap : draft.constructors.mapM fun c => c.item.check c.start with
  | error failure' =>
    rw [hmap] at h
    obtain rfl := Except.error.inj h
    obtain ⟨before, c, after, hsplit, hbefore, herr⟩ := Except.mapM_eq_error_iff.mp hmap
    exact .constructor hsplit hbefore (ConstructorDraft.fails_of_check herr)
  | ok constructors =>
    have hchecked := exists_check_of_mapM hmap
    have hviews := mapM_check_eq_ok_iff.mp hmap
    have hnames := map_name_of_mapM hmap
    rw [hmap] at h
    -- all constructors are fine by themselves: the rest depends on the names they have in common
    obtain ⟨error, herror, rfl⟩ := Except.mapError_eq_error_iff.mp h
    cases ((Declaration.ofConstructors_decided _ _ _).2 error).mp herror with
    | empty hnil =>
      rw [hnil] at hviews
      exact .empty (List.map_eq_nil_iff.mp hviews.symm)
    | parameter _ hname =>
      rw [← firstRepeated?_eq_some_iff, List.map_map] at hname
      exact .parameter hchecked hname
    | constructor _ hnodup hname =>
      rw [← firstRepeated?_eq_none_iff, List.map_map] at hnodup
      rw [← firstRepeated?_eq_some_iff, hnames] at hname
      exact .constructorName hchecked hnodup hname

theorem ConstructorDraft.Fails.remaining_mem {draft : ConstructorDraft} {start : List Char}
    {failure : Failure} (h : draft.Fails start failure) :
    failure.remaining ∈ start :: draft.places := by
  cases h with
  | mixed => exact List.mem_cons_self
  | field =>
    refine getD_secondUse_mem (List.forall_mem_filterMap.mpr fun m hm use huse => ?_) start
    obtain ⟨name, -, rfl⟩ := Option.map_eq_some_iff.mp huse
    exact List.mem_map_of_mem hm

/-- A check that fails points at an item, or at the start of the whole. -/
theorem DeclarationDraft.Fails.remaining_mem {draft : DeclarationDraft} {start : List Char}
    {failure : Failure} (h : draft.Fails start failure) :
    failure.remaining ∈ start :: draft.places := by
  cases h with
  | @constructor before after c _ hsplit _ hfails =>
    have hc : c ∈ draft.constructors := by
      rw [hsplit]
      exact List.mem_append_right _ List.mem_cons_self
    refine List.mem_cons_of_mem _ (List.mem_append_right _ (List.mem_flatMap.mpr ⟨c, hc, ?_⟩))
    exact hfails.remaining_mem
  | empty => exact List.mem_cons_self
  | parameter =>
    refine getD_secondUse_mem (List.forall_mem_map.mpr fun p hp => ?_) start
    exact List.mem_append_left _ (List.mem_map_of_mem hp)
  | constructorName =>
    refine getD_secondUse_mem (List.forall_mem_map.mpr fun c hc => ?_) start
    exact List.mem_append_right _ (List.mem_flatMap.mpr ⟨c, hc, List.mem_cons_self⟩)

/-! ## How the parser fails -/

/-- The parser fails where the text cannot be read to its end, or where a check of names fails. -/
theorem parse_eq_error_iff {source : String} {failure : Failure} :
    parse source = .error failure ↔
      ∃ inner, failure = inner.relabel "a data declaration" ∧
        (declarationDraft source.toList = .error inner ∨
          ∃ draft rest, Reads declarationDraft source.toList draft rest ∧
            draft.check (Text.skipBlanks source.toList) = .error inner) := by
  constructor
  · intro h
    rw [parse_eq] at h
    cases hdraft : declarationDraft source.toList with
    | error inner =>
      rw [hdraft] at h
      exact ⟨inner, (Except.error.inj h).symm, .inl rfl⟩
    | ok success =>
      rw [hdraft] at h
      simp only [Except.bind] at h
      cases hcheck : success.1.check (Text.skipBlanks source.toList) with
      | error inner =>
        rw [hcheck] at h
        exact ⟨inner, (Except.error.inj h).symm, .inr ⟨success.1, success.2, hdraft, hcheck⟩⟩
      | ok d =>
        rw [hcheck] at h
        cases h
  · rintro ⟨inner, rfl, herr | ⟨draft, rest, hr, hcheck⟩⟩
    · rw [parse_eq, herr]
      rfl
    · rw [parse_eq, show declarationDraft source.toList = .ok (draft, rest) from hr]
      simp only [Except.bind, hcheck]
      rfl

theorem isPlace_of_parse_eq_error {source : String} {failure : Failure}
    (h : parse source = .error failure) : IsPlace source.toList failure.remaining := by
  obtain ⟨inner, rfl, hdraft | ⟨draft, rest, hr, hcheck⟩⟩ := parse_eq_error_iff.mp h
  · -- a new label leaves the place alone
    show IsPlace source.toList inner.remaining
    exact tracks_declarationDraft.isPlace hdraft
  · have hmem := (DeclarationDraft.fails_of_check hcheck).remaining_mem
    have hplaces : ∀ place ∈ Text.skipBlanks source.toList :: draft.places,
        IsPlace source.toList place :=
      List.forall_mem_cons.mpr
        ⟨isPlace_skipBlanks source.toList, DeclarationDraft.isPlace_of_mem hr⟩
    exact hplaces _ hmem

end Grammar

/-! ## Telling the place -/

namespace Failure

variable {failure : Failure} {consumed : List Char}

theorem offset_append :
    failure.offset (consumed ++ failure.remaining) = Text.byteLength consumed := by
  rw [offset, Text.byteLength_append]
  omega

theorem position_append :
    failure.position (consumed ++ failure.remaining) = .after consumed := by
  rw [position, offset_append, Text.takeBytes?_byteLength, Option.getD_some]

end Failure

/-- Every failure of the parser is about a declaration and tells its place exactly.  What remained is
an end of the text that does not begin with a blank.  The offset is the number of bytes in front of
it.  Line and column lead to it as well: as many lines as the first says lie in front of the line,
and as many characters of the line as the second says lie in front of what remained. -/
theorem parse_failure_tells_place {source : String} {failure : Failure}
    (h : parse source = .error failure) :
    failure.expected = "a data declaration" ∧
    ∃ consumed, source.toList = consumed ++ failure.remaining ∧
      (∀ c ∈ failure.remaining.head?, Text.isBlank c = false) ∧
      failure.offset source.toList = (String.ofList consumed).utf8ByteSize ∧
      ∃ line column ahead,
        failure.position source.toList = ⟨line + 1, column + 1⟩ ∧
        Text.afterLines? line source.toList = some ahead ∧ column ≤ ahead.length ∧
        '\n' ∉ ahead.take column ∧ ahead.drop column = failure.remaining := by
  obtain ⟨inner, hlabel, -⟩ := Grammar.parse_eq_error_iff.mp h
  refine ⟨by rw [hlabel]; rfl, ?_⟩
  obtain ⟨⟨consumed, hconsumed⟩, hblank⟩ := Grammar.isPlace_of_parse_eq_error h
  refine ⟨consumed, hconsumed.symm, hblank, ?_, consumed.count '\n', (Text.lastLine consumed).length,
    Text.lastLine consumed ++ failure.remaining, ?_, ?_, ?_, ?_, ?_⟩
  · rw [← hconsumed, Failure.offset_append, Text.byteLength_eq_utf8ByteSize]
  · rw [← hconsumed, Failure.position_append, Text.Position.after, Text.lastLine,
      List.length_reverse]
  · rw [← hconsumed, Text.afterLines?_count]
  · rw [List.length_append]
    omega
  · rw [List.take_left]
    exact Text.newline_notMem_lastLine consumed
  · rw [List.drop_left]

/-- A second alternative that is no constructor: the place is in the second line, and the first line
holds a character of two bytes. -/
theorem second_line_failure_tells_place :
    ∃ failure, parse "data É = A\n  | (B" = .error failure ∧
      failure.remaining = "| (B".toList ∧
      ∃ consumed, "data É = A\n  | (B".toList = consumed ++ failure.remaining ∧
        failure.offset "data É = A\n  | (B".toList = (String.ofList consumed).utf8ByteSize ∧
        ∃ line column ahead,
          failure.position "data É = A\n  | (B".toList = ⟨line + 1, column + 1⟩ ∧
          Text.afterLines? line "data É = A\n  | (B".toList = some ahead ∧
          ahead.drop column = failure.remaining := by
  have hparse : parse "data É = A\n  | (B" =
      .error ⟨"a data declaration", "| (B".toList, none⟩ := by cbv
  obtain ⟨-, consumed, hconsumed, -, hoffset, line, column, ahead, hposition, hlines, -, -, hdrop⟩ :=
    parse_failure_tells_place hparse
  exact ⟨_, hparse, rfl, consumed, hconsumed, hoffset, line, column, ahead, hposition, hlines, hdrop⟩

end AlgebraicData
