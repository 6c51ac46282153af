import AlgebraicData.Proofs.Grammar.Failure
import AlgebraicData.Proofs.Grammar.RoundTrip

/-!
# What stands in front of a syntax error

Repetitions give back what they cannot read to its end, so a failure need not be where the text
stops making sense.  It is never after that place: some text that goes on from there is read.

* `Halts` — where the rules for a declaration stop.  The tokens up to there follow the grammar, and
  what it asks for next does not stand there.
* `Spells.exists_prints` — tokens that were read are read again from the same characters, whatever
  follows that does not go on with a name.
* `Halts.exists_describes` — so it is enough to find tokens that complete those up to the failure.
-/

namespace AlgebraicData

/-- The error is about a name that is used twice. -/
def DeclarationError.IsRepetition : DeclarationError → Prop
  | .duplicateConstructor .. | .duplicateParameter .. | .duplicateField .. => True
  | .noConstructors _ | .mixedMembers _ => False

/-- The text can be gone on with such that nothing is wrong with it but names that are used
twice. -/
def IsViable (text : List Char) : Prop :=
  ∃ more, (∃ d, parse (String.ofList (text ++ more)) = .ok d) ∨
    ∃ failure error, parse (String.ofList (text ++ more)) = .error failure ∧
      failure.reason = some error ∧ error.IsRepetition

namespace Grammar

open Rule Token

/-! ## Checks of what was read -/

/-- What was read has constructors and mixes no members, so only names can be wrong with it. -/
theorem exists_repetition_of_check {text rest start : List Char} {draft : DeclarationDraft}
    {failure : Failure} (hr : Reads declarationDraft text draft rest)
    (h : draft.check start = .error failure) :
    ∃ error, failure.reason = some error ∧ error.IsRepetition := by
  obtain ⟨hne, huniform⟩ := DeclarationDraft.uniform_of_reads hr
  cases DeclarationDraft.fails_of_check h with
  | constructor hsplit _ hfails =>
    cases hfails with
    | mixed hmixed => exact absurd (huniform _ (by simp [hsplit])) hmixed
    | field => exact ⟨_, rfl, trivial⟩
  | empty hnil => exact absurd hnil hne
  | parameter => exact ⟨_, rfl, trivial⟩
  | constructorName => exact ⟨_, rfl, trivial⟩

theorem isViable_of_describes {text more : List Char} {r : Reading}
    (h : Describes true (text ++ more) r) : IsViable text := by
  obtain ⟨draft, rest, hr, -⟩ := describes_iff_reads.mp h
  rw [← String.toList_ofList (l := text ++ more)] at hr
  refine ⟨more, ?_⟩
  cases hparse : parse (String.ofList (text ++ more)) with
  | ok d => exact .inl ⟨d, rfl⟩
  | error failure =>
    right
    obtain ⟨inner, rfl, herr | ⟨draft', rest', hr', hcheck⟩⟩ := parse_eq_error_iff.mp hparse
    · rw [show declarationDraft _ = .ok (draft, rest) from hr] at herr
      cases herr
    · obtain ⟨error, hreason, herror⟩ := exists_repetition_of_check hr' hcheck
      exact ⟨_, error, rfl, hreason, herror⟩

/-! ## Where the rules stop -/

/-- A constructor needs no more than a name, so it fails only where no name stands. -/
theorem constructorDraft_eq_error_iff {text : List Char} {failure : Failure} :
    constructorDraft text = .error failure ↔ identifier text = .error failure := by
  change either recordConstructor positionalConstructor text = .error failure ↔ _
  unfold either
  cases hname : identifier text with
  | error inner =>
    have hrecord : recordConstructor text = .error inner := bind_eq_error_iff.mpr (.inl hname)
    have hpositional : positionalConstructor text = .error inner :=
      bind_eq_error_iff.mpr (.inl hname)
    rcases furthest_eq_or inner inner with heq | heq <;>
      simp [hrecord, hpositional, Except.mapError, heq]
  | ok success =>
    have hpositional : ∃ draft, positionalConstructor text = .ok draft := by
      obtain ⟨members, rest, hmembers⟩ := exists_reads_many (located member) success.2
      refine ⟨(⟨success.1, members⟩, rest), reads_bind.mpr ⟨_, _, hname, ?_⟩⟩
      exact reads_bind.mpr ⟨_, _, hmembers, reads_pure.mpr ⟨rfl, rfl⟩⟩
    obtain ⟨draft, hdraft⟩ := hpositional
    cases recordConstructor text <;> simp [hdraft, Except.mapError]

/-- Where reading a declaration stops: the tokens in front follow the grammar, and what it asks for
next does not stand in the text that follows them. -/
inductive Halts : List Token → List Char → Prop where
  | keyword {rest : List Char} : (∀ after, ¬ (word "data").Begins rest after) → Halts [] rest
  | name {rest : List Char} : (∀ name after, ¬ (word name).Begins rest after) →
      Halts [word "data"] rest
  | equals {name : String} {tokens : List Token} {parameters : List TypeParameter}
      {rest : List Char} : Star DerivesParameter tokens parameters →
      (∀ ⦃more p⦄, DerivesParameter more p → ∀ after, ¬ Spells more rest after) →
      (∀ after, ¬ (sign "=").Begins rest after) → Halts (word "data" :: word name :: tokens) rest
  | constructor {name : String} {tokens : List Token} {parameters : List TypeParameter}
      {rest : List Char} : Star DerivesParameter tokens parameters →
      (∀ name after, ¬ (word name).Begins rest after) →
      Halts (word "data" :: word name :: tokens ++ [sign "="]) rest
  | trailing {tokens : List Token} {r : Reading} {rest : List Char} :
      DerivesDeclaration true tokens r →
      (∀ name after, ¬ Spells [sign "|", word name] rest after) →
      (∃ c ∈ rest, Text.isBlank c = false) → Halts tokens rest

theorem not_begins_of_refuses {text : List Char} (h : Refuses identifier text) :
    ∀ name after, ¬ (word name).Begins text after :=
  fun name after hb => h name after (reads_identifier.mpr hb)

/-- A name is enough for a constructor. -/
theorem not_refuses_constructorDraft {name : String} {text after : List Char}
    (h : (word name).Begins text after) : ¬ Refuses (located constructorDraft) text := by
  intro hno
  obtain ⟨failure, herr⟩ := hno.exists_error
  have hname := refuses_of_error (constructorDraft_eq_error_iff.mp (located_eq_error_iff.mp herr))
  exact hname name after (reads_identifier.mpr (begins_skipBlanks.mpr h))

/-- After a list of constructors no further one follows. -/
theorem not_spells_of_sepBy1 {text rest : List Char} {drafts : List (Located ConstructorDraft)}
    (h : Reads (sepBy1 (symbol "|") (located constructorDraft)) text drafts rest) :
    ∀ name after, ¬ Spells [sign "|", word name] rest after := by
  rintro name after ⟨mid, hsign, hname⟩
  have hshrinks : Shrinks (do let _ ← symbol "|"; located constructorDraft) :=
    itemSound_constructorDraft.located.shrinks_separated (by decide)
  obtain ⟨_, _, _, -, -, hmore⟩ := (reads_sepBy1 hshrinks).mp h
  refine not_refuses_constructorDraft (spells_singleton.mp hname) fun draft rest' hr => ?_
  refine hmore.refuses draft rest' (reads_bind.mpr ⟨"|", mid, ?_, hr⟩)
  exact (reads_symbol (by decide)).mpr ⟨rfl, hsign⟩

/-- The rule for a declaration fails where it halts, one case for each of its steps. -/
theorem halts_of_eq_error {text : List Char} {failure : Failure}
    (h : declarationDraft text = .error failure) :
    ∃ tokens rest, Spells tokens text rest ∧ failure.remaining = Text.skipBlanks rest ∧
      Halts tokens rest := by
  rcases bind_eq_error_iff.mp h with h | ⟨_, mid, hdata, h⟩
  · refine ⟨[], text, rfl, (failsWith_keyword _).remaining_eq h, .keyword fun after hb => ?_⟩
    exact refuses_of_error h _ _ ((reads_keyword isName_data).mpr ⟨rfl, hb⟩)
  replace hdata := ((reads_keyword isName_data).mp hdata).2
  rcases bind_eq_error_iff.mp h with h | ⟨name, mid', hname, h⟩
  · refine ⟨[word "data"], mid, spells_singleton.mpr hdata, failsWith_identifier.remaining_eq h,
      .name ?_⟩
    exact not_begins_of_refuses (refuses_of_error h)
  replace hname := reads_identifier.mp hname
  rcases bind_eq_error_iff.mp h with h | ⟨parameters, mid'', hparameters, h⟩
  · -- a repetition never fails
    cases h
  obtain ⟨tokens, hsp, hp⟩ := itemSound_parameter.located.star hparameters
  have hhead : Spells (word "data" :: word name :: tokens) text mid'' :=
    ⟨mid, hdata, mid', hname, hsp⟩
  rcases bind_eq_error_iff.mp h with h | ⟨_, after, hequals, h⟩
  · refine ⟨_, mid'', hhead, (failsWith_symbol _).remaining_eq h, .equals hp ?_ fun after hb => ?_⟩
    · -- the repetition went on as long as it could
      intro more p hd after hs
      obtain ⟨value, hr, -⟩ :=
        itemComplete_parameter.located (fun _ _ hd => hd.ne_nil) hd hs trivial
      exact ((reads_many itemSound_parameter.located.shrinks).mp hparameters).refuses _ _ hr
    · exact refuses_of_error h _ _ ((reads_symbol (by decide)).mpr ⟨rfl, hb⟩)
  replace hequals := ((reads_symbol (by decide)).mp hequals).2
  rcases bind_eq_error_iff.mp h with h | ⟨constructors, last, hconstructors, h⟩
  · -- only the first constructor can fail, and that only for its name
    replace h := constructorDraft_eq_error_iff.mp
      (located_eq_error_iff.mp (sepBy1_eq_error_iff.mp h))
    refine ⟨_, after, spells_append.mpr ⟨mid'', hhead, spells_singleton.mpr hequals⟩, ?_,
      .constructor hp fun name rest hb => ?_⟩
    · exact (failsWith_identifier.remaining_eq h).trans (List.dropWhile_idempotent _ _)
    · exact not_begins_of_refuses (refuses_of_error h) name rest (begins_skipBlanks.mpr hb)
  obtain ⟨tokens', hsc, hc⟩ :=
    itemSound_constructorDraft.located.separated (by decide) hconstructors
  have hall : Spells (word "data" :: word name :: tokens ++ sign "=" :: tokens') text last :=
    spells_append.mpr ⟨mid'', hhead, after, hequals, hsc⟩
  rcases bind_eq_error_iff.mp h with h | ⟨_, rest', hend, h⟩
  · refine ⟨_, last, hall, failsWith_endOfInput.remaining_eq h,
      .trailing (.declaration hp hc) (not_spells_of_sepBy1 hconstructors) ?_⟩
    -- if nothing but blanks were left, this would be the end
    by_contra hblank
    push Not at hblank
    refine refuses_of_error h () [] (reads_endOfInput.mpr ⟨fun c hc => ?_, rfl⟩)
    simpa using hblank c hc
  · cases h

/-! ## Going on from there -/

theorem continuesName_append {front rest : List Char} (hfront : continuesName front = false)
    (hrest : continuesName rest = false) : continuesName (front ++ rest) = false := by
  cases front with
  | nil => exact hrest
  | cons c front => exact hfront

theorem continuesName_of_append {front rest : List Char}
    (h : continuesName (front ++ rest) = false) : continuesName front = false := by
  cases front with
  | nil => rfl
  | cons c front => exact h

/-- Tokens that were read are read again from the same characters. -/
theorem Spells.exists_prints {tokens : List Token} {text rest : List Char}
    (h : Spells tokens text rest) : ∃ front : String, text = front.toList ++ rest ∧
      Prints tokens front := by
  induction tokens generalizing text with
  | nil => exact ⟨"", h, fun _ _ => rfl⟩
  | cons token tokens ih =>
    obtain ⟨mid, ⟨blanks, hblanks, rfl, hlex, hend⟩, hs⟩ := h
    obtain ⟨front, rfl, hprints⟩ := ih hs
    refine ⟨String.ofList (blanks ++ token.characters) ++ front, by simp, fun rest' hrest' => ?_⟩
    rw [String.toList_append, String.toList_ofList, List.append_assoc, List.append_assoc]
    refine ⟨front.toList ++ rest', ⟨blanks, hblanks, rfl, hlex, ?_⟩, hprints rest' hrest'⟩
    -- a word ends where it ended before, since its next character is a given one
    cases token with
    | word name => exact continuesName_append (continuesName_of_append hend) hrest'
    | sign text => trivial

theorem continuesName_of_isBlank {blanks : List Char} (h : ∀ c ∈ blanks, Text.isBlank c = true) :
    continuesName blanks = false := by
  cases blanks with
  | nil => rfl
  | cons c blanks => simp [continuesName, isNameRest, isPunctuation, h c List.mem_cons_self]

/-- Tokens that complete a declaration may be written after any blanks. -/
theorem describes_of_prints {tokens tokens' : List Token} {front text : String}
    {blanks : List Char} {r : Reading} (hfront : Prints tokens front)
    (hblanks : ∀ c ∈ blanks, Text.isBlank c = true) (hne : tokens' ≠ [])
    (htext : Prints tokens' text) (hd : DerivesDeclaration true (tokens ++ tokens') r) :
    Describes true (front.toList ++ blanks ++ (" " ++ text).toList) r := by
  have hapart : continuesName (blanks ++ (" " ++ text).toList) = false :=
    continuesName_append (continuesName_of_isBlank hblanks) (continuesName_blank text)
  have hspells : Spells tokens' (blanks ++ (" " ++ text).toList) [] := by
    rw [← spells_skipBlanks hne, skipBlanks_append hblanks, spells_skipBlanks hne]
    simpa using htext.blank hne [] rfl
  refine ⟨tokens ++ tokens', [], ?_, List.forall_mem_nil _, hd⟩
  rw [List.append_assoc]
  exact spells_append.mpr ⟨_, hfront _ hapart, hspells⟩

/-- Wherever reading stops, the tokens in front can be completed. -/
theorem Halts.exists_describes {tokens : List Token} {rest blanks : List Char} {front : String}
    (h : Halts tokens rest) (hfront : Prints tokens front)
    (hblanks : ∀ c ∈ blanks, Text.isBlank c = true) :
    ∃ more r, Describes true (front.toList ++ blanks ++ more) r := by
  have hY : IsName "Y" := ⟨'Y', [], rfl, by decide, List.forall_mem_singleton.mpr (by decide)⟩
  have hX : IsName "X" := ⟨'X', [], rfl, by decide, List.forall_mem_singleton.mpr (by decide)⟩
  have hlast : Separated (sign "|") (DerivesConstructor true) [word "Y"] [("Y", [])] :=
    .last (.positional .nil)
  -- the ends of `data X = Y`: each place where reading stops needs one of them
  have hconstructor : Prints [word "Y"] "Y" := prints_word hY
  have hbody : Prints [sign "=", word "Y"] "= Y" :=
    (hconstructor.blank (by simp)).sign_append (by decide)
  have hhead : Prints [word "X", sign "=", word "Y"] "X = Y" :=
    (prints_word hX).append (hbody.blank (by simp)) (continuesName_blank _)
  have hdeclaration : Prints [word "data", word "X", sign "=", word "Y"] "data X = Y" :=
    (prints_word isName_data).append (hhead.blank (by simp)) (continuesName_blank _)
  cases h with
  | keyword =>
    exact ⟨_, _, describes_of_prints hfront hblanks (by simp) hdeclaration
      (.declaration .nil hlast)⟩
  | name =>
    exact ⟨_, _, describes_of_prints hfront hblanks (by simp) hhead (.declaration .nil hlast)⟩
  | equals hp =>
    exact ⟨_, _, describes_of_prints hfront hblanks (by simp) hbody (.declaration hp hlast)⟩
  | @constructor name tokens parameters _ hp =>
    have hd : DerivesDeclaration true
        (word "data" :: word name :: tokens ++ [sign "="] ++ [word "Y"])
        ⟨name, parameters, [("Y", [])]⟩ := by
      rw [List.append_assoc]
      exact .declaration hp hlast
    exact ⟨_, _, describes_of_prints hfront hblanks (by simp) hconstructor hd⟩
  | trailing hd =>
    refine ⟨[], _, _, blanks, ?_, hblanks, hd⟩
    rw [List.append_nil]
    exact hfront blanks (continuesName_of_isBlank hblanks)

end Grammar

/-- A failure that is not about names leaves a text that was fine up to there: it can be gone on with
such that nothing is wrong but names that are used twice.  The failure is where reading halts. -/
theorem syntax_failure_after_viable_text {source : String} {failure : Failure}
    (h : parse source = .error failure) (hreason : failure.reason = none) :
    ∃ consumed, source.toList = consumed ++ failure.remaining ∧ IsViable consumed ∧
      ∃ tokens rest, Token.Spells tokens source.toList rest ∧
        failure.remaining = Text.skipBlanks rest ∧ Grammar.Halts tokens rest := by
  obtain ⟨inner, rfl, herr | ⟨draft, rest, hr, hcheck⟩⟩ := Grammar.parse_eq_error_iff.mp h
  · obtain ⟨tokens, rest, hs, hremaining, hhalts⟩ := Grammar.halts_of_eq_error herr
    obtain ⟨front, htext, hfront⟩ := Grammar.Spells.exists_prints hs
    have hblanks : ∀ c ∈ rest.takeWhile Text.isBlank, Text.isBlank c = true :=
      fun c hc => List.mem_takeWhile_imp hc
    obtain ⟨more, r, hd⟩ := hhalts.exists_describes hfront hblanks
    refine ⟨front.toList ++ rest.takeWhile Text.isBlank, ?_, Grammar.isViable_of_describes hd,
      tokens, rest, hs, hremaining, hhalts⟩
    change source.toList = _ ++ inner.remaining
    rw [htext, hremaining, List.append_assoc]
    exact congrArg _ List.takeWhile_append_dropWhile.symm
  · -- a check that fails says why
    obtain ⟨error, hsome, -⟩ := Grammar.exists_repetition_of_check hr hcheck
    cases hsome.symm.trans hreason

/-- The field has no type, so the constructor is given back up to its name. -/
theorem untyped_field_failure_after_viable_text :
    ∃ failure, parse "data A = B | C { x :: }" = .error failure ∧ failure.reason = none ∧
      failure.remaining = "{ x :: }".toList ∧
      ∃ consumed, "data A = B | C { x :: }".toList = consumed ++ failure.remaining ∧
        IsViable consumed := by
  have hparse : parse "data A = B | C { x :: }" =
      .error ⟨"a data declaration", "{ x :: }".toList, none⟩ := by cbv
  obtain ⟨consumed, hconsumed, hviable, -⟩ := syntax_failure_after_viable_text hparse rfl
  exact ⟨_, hparse, rfl, rfl, consumed, hconsumed, hviable⟩

end AlgebraicData
