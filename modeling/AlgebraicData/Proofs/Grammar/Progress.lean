import AlgebraicData.Proofs.Grammar.Failure

/-!
# Progress

Repetition and recursion carry a test of their own: a round that reads nothing is the last one, and
a rule starts over only on a shorter text.  In this grammar neither test is ever needed.

* `Rule.Advances` — a rule fails inside its text or leaves a shorter end of it.  All rules of the
  grammar advance.
* `Rule.EndsUntested`, `Rule.SepEndsUntested` — hence each repetition of the grammar ends by itself.
* `AgreeBelow` — and a nested type is looked for in shorter texts only, so that the equations of the
  grammar without any test have exactly one solution (`eq_typeExprOver_iff`).
-/

namespace AlgebraicData

namespace Rule

variable {α β : Type}

/-! ## Rules that advance -/

/-- A success leaves a shorter end of the text, and a failure is inside the text. -/
def AdvancesIn (text : List Char) : Except Failure (α × List Char) → Prop
  | .ok (_, rest) => rest <:+ text ∧ rest.length < text.length
  | .error failure => failure.remaining <:+ text

/-- The rule advances, whatever the text is. -/
def Advances (rule : Rule α) : Prop :=
  ∀ text, AdvancesIn text (rule text)

/-- Keeping track of places, a rule advances if what it leaves is shorter. -/
theorem Shrinks.advances {rule : Rule α} (h : Shrinks rule) (htracks : Tracks rule) :
    Advances rule := by
  intro text
  cases hr : rule text with
  | ok success => exact ⟨htracks.suffix hr, h hr⟩
  | error failure => exact (htracks.isPlace hr).1

/-- In a sequence the first rule makes the text shorter, and the others stay in what it leaves. -/
theorem Shrinks.bind_of_tracks {rule : Rule α} {next : α → Rule β} (h : Shrinks rule)
    (hnext : ∀ value, Tracks (next value)) : Shrinks (rule >>= next) :=
  h.bind fun value _ _ _ hr => ((hnext value).suffix hr).length_le

theorem Shrinks.expected {rule : Rule α} (h : Shrinks rule) (label : String) :
    Shrinks (expected label rule) :=
  fun _ _ _ hr => h (reads_expected.mp hr)

theorem Shrinks.located {rule : Rule α} (h : Shrinks rule) : Shrinks (located rule) := by
  intro text value rest hr
  obtain ⟨-, hr⟩ := reads_located.mp hr
  have hskip : (Text.skipBlanks text).length ≤ text.length := List.length_dropWhile_le _ _
  have hlt := h hr
  omega

/-! ## Repetitions that end -/

/-- Repeating the rule until it fails comes to an end without any other test. -/
structure EndsUntested (rule : Rule α) : Prop where
  /-- Every round leaves a shorter end of its text. -/
  advances : Advances rule
  /-- There is no endless sequence of rounds. -/
  wellFounded : WellFounded fun rest text => ∃ value, Reads rule text value rest
  /-- A repetition reads round after round up to the first that fails: that a round read nothing is
  never the reason to stop. -/
  reads_iff : ∀ text values rest,
    Reads (many rule) text values rest ↔ Repeats rule text values rest

theorem Shrinks.endsUntested {rule : Rule α} (h : Shrinks rule) (htracks : Tracks rule) :
    EndsUntested rule where
  advances := h.advances htracks
  wellFounded := by
    refine Subrelation.wf ?_ (measure List.length).wf
    rintro rest text ⟨value, hr⟩
    exact h hr
  reads_iff _ _ _ := reads_many h

/-- A list with separators comes to an end without any test. -/
structure SepEndsUntested (separator : Rule β) (rule : Rule α) : Prop where
  rounds : EndsUntested (do let _ ← separator; rule)
  /-- After the first item the list goes on, separator and item, up to the first round that fails. -/
  reads_iff : ∀ text values rest,
    Reads (sepBy1 separator rule) text values rest ↔
      ∃ first more mid, values = first :: more ∧ Reads rule text first mid ∧
        Repeats (do let _ ← separator; rule) mid more rest

theorem Shrinks.sepEndsUntested {separator : Rule β} {rule : Rule α} (h : Shrinks separator)
    (hsep : Tracks separator) (htracks : Tracks rule) : SepEndsUntested separator rule where
  rounds := (h.bind_of_tracks fun _ => htracks).endsUntested (hsep.bind fun _ => htracks)
  reads_iff _ _ _ := reads_sepBy1 (h.bind_of_tracks fun _ => htracks)

end Rule

namespace Token

open Rule

theorem shrinks_keyword {word : String} (hword : IsName word) : Shrinks (keyword word) :=
  fun _ _ _ h => ((reads_keyword hword).mp h).2.length_lt

end Token

namespace Grammar

open Rule Token

/-! ## Types -/

theorem shrinks_parenthesized : Shrinks parenthesized :=
  sound_typeExpr.parenthesizedOver.shrinks (by decide) (by decide)

theorem shrinks_application : Shrinks application :=
  sound_typeExpr.applicationOver.shrinks (by decide) (by decide)

theorem tracks_atom : Tracks atom :=
  tracks_atomOver tracks_typeExpr

theorem tracks_arrowTail (domain : TypeExpr) : Tracks (arrowTail domain) :=
  tracks_arrowTailOver tracks_typeExpr domain

/-! ## Constructors and declarations -/

theorem shrinks_member : Shrinks member :=
  shrinks_atom.bind_of_tracks fun domain =>
    (tracks_arrowTail domain).bind fun _ => tracks_pure _

theorem shrinks_field : Shrinks field :=
  shrinks_identifier.bind_of_tracks fun _ =>
    (tracks_symbol "::").bind fun _ => tracks_typeExpr.bind fun _ => tracks_pure _

theorem shrinks_constructorDraft : Shrinks constructorDraft := by
  refine Shrinks.choice_pair ?_ ?_
  · exact shrinks_identifier.bind_of_tracks fun _ => (tracks_symbol openBrace).bind fun _ =>
      ((tracks_symbol ",").sepBy1 tracks_field.located).bind fun _ =>
        (tracks_symbol closeBrace).bind fun _ => tracks_pure _
  · exact shrinks_identifier.bind_of_tracks fun _ =>
      tracks_member.located.many.bind fun _ => tracks_pure _

theorem shrinks_parameter : Shrinks parameter := by
  refine Shrinks.expected (Shrinks.choice_pair ?_ ?_) "a parameter"
  · exact shrinks_identifier.bind_of_tracks fun _ => tracks_pure _
  · exact (shrinks_symbol (by decide)).bind_of_tracks fun _ => tracks_identifier.bind fun _ =>
      (tracks_symbol "::").bind fun _ => tracks_typeExpr.bind fun _ =>
        (tracks_symbol ")").bind fun _ => tracks_pure _

theorem shrinks_declarationDraft : Shrinks declarationDraft :=
  (shrinks_keyword isName_data).bind_of_tracks fun _ => tracks_identifier.bind fun _ =>
    tracks_parameter.located.many.bind fun _ => (tracks_symbol "=").bind fun _ =>
      ((tracks_symbol "|").sepBy1 tracks_constructorDraft.located).bind fun _ =>
        tracks_endOfInput.bind fun _ => tracks_pure _

/-- A declaration is read where its draft is, and the check reads nothing more. -/
theorem exists_draft_of_declaration {text rest : List Char} {d : Declaration}
    (h : Reads declaration text d rest) :
    ∃ draft, Reads declarationDraft text draft rest := by
  have hread : Reads (declarationDraft >>= fun draft =>
      liftM (draft.check (Text.skipBlanks text))) text d rest := reads_expected.mp h
  obtain ⟨draft, mid, hdraft, hcheck⟩ := reads_bind.mp hread
  unfold Reads at hcheck
  cases hresult : draft.check (Text.skipBlanks text) with
  | error failure =>
    rw [hresult] at hcheck
    cases hcheck
  | ok checked =>
    rw [hresult] at hcheck
    cases hcheck
    exact ⟨draft, hdraft⟩

theorem advances_declaration : Advances declaration := by
  intro text
  cases hr : declaration text with
  | ok success =>
    obtain ⟨draft, hdraft⟩ := exists_draft_of_declaration hr
    exact ⟨tracks_declarationDraft.suffix hdraft, shrinks_declarationDraft hdraft⟩
  | error failure =>
    -- also a failed check points into the text
    have hparse : parse (String.ofList text) = .error failure := by
      rw [parse, String.toList_ofList, hr]
      rfl
    have hplace := isPlace_of_parse_eq_error hparse
    rw [String.toList_ofList] at hplace
    exact hplace.1

/-! ## Recursion -/

theorem agree_arrowTailOver {length : Nat} {type type' : Rule TypeExpr}
    (h : AgreeBelow length type type') (domain : TypeExpr) :
    AgreeBelow (length + 1) (arrowTailOver type domain) (arrowTailOver type' domain) := by
  intro text hlt
  refine bind_congr_at rfl fun found rest hfound => ?_
  cases found with
  | none => rfl
  | some found =>
    have hrest := shrinks_symbol (by decide) (reads_maybe_some.mp hfound)
    exact bind_congr_at (expected_congr_at (h rest (by omega))) fun _ _ _ => rfl

theorem agree_typeExpr {length : Nat} {type : Rule TypeExpr}
    (h : AgreeBelow length type typeExpr) :
    AgreeBelow (length + 1) (typeExprOver type) typeExpr := by
  have hover := agree_typeExprOver h sound_typeExpr
  rwa [← typeExpr_eq] at hover

/-- The equation of types has one solution: by induction on the length, since nested types are
looked for in shorter texts. -/
theorem eq_typeExprOver_iff {type : Rule TypeExpr} :
    type = typeExprOver type ↔ type = typeExpr := by
  constructor
  · intro h
    have hagree : ∀ length, AgreeBelow length type typeExpr := by
      intro length
      induction length with
      | zero => exact fun text hlt => absurd hlt (Nat.not_lt_zero _)
      | succ length ih =>
        rw [h]
        exact agree_typeExpr ih
    funext text
    exact hagree (text.length + 1) text (Nat.lt_succ_self _)
  · rintro rfl
    exact typeExpr_eq

/-- Every rule of the grammar fails inside its text or leaves a shorter end of it.

So reading ends, with no need of a test.  What the rules for types do with a text depends on the rule
for nested types only through texts that are shorter, and their equation has exactly one solution.
The rounds of each repetition (the arguments of an application, the types between parentheses, the
members and the fields of a constructor, the parameters and the constructors of a declaration)
advance, there is no endless sequence of them, and the repetition stops only where a round fails. -/
theorem rules_advance_and_end :
    (Advances identifier ∧ Advances parenthesized ∧ Advances atom ∧ Advances application ∧
      Advances typeExpr ∧ Advances member ∧ Advances field ∧ Advances constructorDraft ∧
      Advances parameter ∧ Advances declaration) ∧
    ((∀ (type : Rule TypeExpr) (text : List Char), AgreeBelow text.length type typeExpr →
        typeExprOver type text = typeExpr text ∧ applicationOver type text = application text ∧
        atomOver type text = atom text ∧ parenthesizedOver type text = parenthesized text ∧
        ∀ domain, arrowTailOver type domain text = arrowTail domain text) ∧
      ∀ type, type = typeExprOver type ↔ type = typeExpr) ∧
    (EndsUntested atom ∧ SepEndsUntested (symbol ",") typeExpr ∧ EndsUntested (located member) ∧
      SepEndsUntested (symbol ",") (located field) ∧ EndsUntested (located parameter) ∧
      SepEndsUntested (symbol "|") (located constructorDraft)) := by
  refine ⟨⟨?_, ?_, ?_, ?_, ?_, ?_, ?_, ?_, ?_, advances_declaration⟩, ⟨?_, ?_⟩, ?_, ?_, ?_, ?_,
    ?_, ?_⟩
  · exact shrinks_identifier.advances tracks_identifier
  · exact shrinks_parenthesized.advances (tracks_parenthesizedOver tracks_typeExpr)
  · exact shrinks_atom.advances tracks_atom
  · exact shrinks_application.advances (tracks_applicationOver tracks_typeExpr)
  · exact shrinks_typeExpr.advances tracks_typeExpr
  · exact shrinks_member.advances tracks_member
  · exact shrinks_field.advances tracks_field
  · exact shrinks_constructorDraft.advances tracks_constructorDraft
  · exact shrinks_parameter.advances tracks_parameter
  · intro type text h
    have hlt : text.length < text.length + 1 := Nat.lt_succ_self _
    exact ⟨agree_typeExpr h text hlt, agree_applicationOver h shrinks_typeExpr text hlt,
      agree_atomOver h shrinks_typeExpr text hlt, agree_parenthesizedOver h shrinks_typeExpr text hlt,
      fun domain => agree_arrowTailOver h domain text hlt⟩
  · exact fun type => eq_typeExprOver_iff
  · exact shrinks_atom.endsUntested tracks_atom
  · exact (shrinks_symbol (by decide)).sepEndsUntested (tracks_symbol ",") tracks_typeExpr
  · exact shrinks_member.located.endsUntested tracks_member.located
  · exact (shrinks_symbol (by decide)).sepEndsUntested (tracks_symbol ",") tracks_field.located
  · exact shrinks_parameter.located.endsUntested tracks_parameter.located
  · exact (shrinks_symbol (by decide)).sepEndsUntested (tracks_symbol "|")
      tracks_constructorDraft.located

end Grammar

end AlgebraicData
