import AlgebraicData.Grammar.TypeExpr
import AlgebraicData.Proofs.Grammar.Token

/-!
# The language of types

`Derives` is the grammar of types over tokens, one constructor for each production.  The rules read
exactly what it derives:

* `sound` — what the rule of a phrase reads is spelled by tokens that derive the phrase;
* `complete` — tokens that derive a phrase are read as the value derived, provided the text stops
  there (`Phrase.Stops`): a longest match must not be able to go on.

Both go by induction, the first over the text (the recursive rule reads nested types from shorter
texts), the second over the derivation.
-/

namespace AlgebraicData

namespace Grammar

open Rule Token

/-! ## The grammar -/

/-- The constructs that a type is made of. -/
inductive Phrase where
  | type
  | application
  | atom
  /-- `atom*`. -/
  | atoms
  /-- `("," type)*`. -/
  | items
deriving DecidableEq, Repr

/-- What a phrase stands for. -/
abbrev Phrase.Value : Phrase → Type
  | .type | .application | .atom => TypeExpr
  | .atoms | .items => List TypeExpr

/-- The tokens can be derived from the phrase, and stand for the value. -/
inductive Derives : (phrase : Phrase) → List Token → phrase.Value → Prop where
  /-- `type := application "->" type` -/
  | applicationArrow {tokens tokens' : List Token} {domain codomain : TypeExpr} :
      Derives .application tokens domain → Derives .type tokens' codomain →
      Derives .type (tokens ++ sign "->" :: tokens') (.arrow domain codomain)
  /-- `type := atom "->" type` -/
  | atomArrow {tokens tokens' : List Token} {domain codomain : TypeExpr} :
      Derives .atom tokens domain → Derives .type tokens' codomain →
      Derives .type (tokens ++ sign "->" :: tokens') (.arrow domain codomain)
  /-- `type := application` -/
  | ofApplication {tokens : List Token} {type : TypeExpr} :
      Derives .application tokens type → Derives .type tokens type
  /-- `type := atom` -/
  | ofAtom {tokens : List Token} {type : TypeExpr} :
      Derives .atom tokens type → Derives .type tokens type
  /-- `application := identifier atom*` -/
  | application {name : String} {tokens : List Token} {args : List TypeExpr} :
      Derives .atoms tokens args → Derives .application (word name :: tokens) (.ref name args)
  | noAtoms : Derives .atoms [] []
  | moreAtoms {tokens tokens' : List Token} {arg : TypeExpr} {args : List TypeExpr} :
      Derives .atom tokens arg → Derives .atoms tokens' args →
      Derives .atoms (tokens ++ tokens') (arg :: args)
  /-- `atom := identifier` -/
  | name {name : String} : Derives .atom [word name] (.var name)
  /-- `atom := "(" ")"` -/
  | unit : Derives .atom [sign "(", sign ")"] .unit
  /-- `atom := "(" type ")"` -/
  | parentheses {tokens : List Token} {type : TypeExpr} :
      Derives .type tokens type → Derives .atom (sign "(" :: tokens ++ [sign ")"]) type
  /-- `atom := "(" type ("," type)+ ")"` -/
  | tuple {tokens tokens' : List Token} {first second : TypeExpr} {more : List TypeExpr} :
      Derives .type tokens first → Derives .items tokens' (second :: more) →
      Derives .atom (sign "(" :: tokens ++ tokens' ++ [sign ")"]) (.tuple (first :: second :: more))
  | noItems : Derives .items [] []
  | moreItems {tokens tokens' : List Token} {type : TypeExpr} {types : List TypeExpr} :
      Derives .type tokens type → Derives .items tokens' types →
      Derives .items (sign "," :: tokens ++ tokens') (type :: types)

/-- The rule that reads a phrase, over a rule for nested types. -/
def Phrase.ruleOver (type : Rule TypeExpr) : (phrase : Phrase) → Rule phrase.Value
  | .type => typeExprOver type
  | .application => applicationOver type
  | .atom => atomOver type
  | .atoms => many (atomOver type)
  | .items => many (do let _ ← symbol ","; type)

/-- The rule that reads a phrase. -/
def Phrase.rule : (phrase : Phrase) → Rule phrase.Value
  | .type => typeExpr
  | phrase => phrase.ruleOver typeExpr

/-! ## Where phrases begin -/

/-- A type, an application or an atom begins with a name or an opening parenthesis. -/
theorem Derives.exists_head {phrase : Phrase} {tokens : List Token} {value : phrase.Value}
    (h : Derives phrase tokens value) (hatoms : phrase ≠ .atoms) (hitems : phrase ≠ .items) :
    ∃ token more, tokens = token :: more ∧ ((∃ name, token = word name) ∨ token = sign "(") := by
  induction h with
  | applicationArrow _ _ ih _ =>
    obtain ⟨token, more, rfl, htoken⟩ := ih nofun nofun
    exact ⟨token, _, rfl, htoken⟩
  | atomArrow _ _ ih _ =>
    obtain ⟨token, more, rfl, htoken⟩ := ih nofun nofun
    exact ⟨token, _, rfl, htoken⟩
  | ofApplication _ ih => exact ih nofun nofun
  | ofAtom _ ih => exact ih nofun nofun
  | application => exact ⟨_, _, rfl, .inl ⟨_, rfl⟩⟩
  | name => exact ⟨_, _, rfl, .inl ⟨_, rfl⟩⟩
  | unit => exact ⟨_, _, rfl, .inr rfl⟩
  | parentheses => exact ⟨_, _, rfl, .inr rfl⟩
  | tuple => exact ⟨_, _, rfl, .inr rfl⟩
  | noAtoms => exact absurd rfl hatoms
  | moreAtoms => exact absurd rfl hatoms
  | noItems => exact absurd rfl hitems
  | moreItems => exact absurd rfl hitems

theorem Derives.ne_nil {phrase : Phrase} {tokens : List Token} {value : phrase.Value}
    (h : Derives phrase tokens value) (hatoms : phrase ≠ .atoms) (hitems : phrase ≠ .items) :
    tokens ≠ [] := by
  obtain ⟨token, more, rfl, -⟩ := h.exists_head hatoms hitems
  simp

/-- Where another sign stands, neither a type nor an atom does. -/
theorem Derives.not_spells_of_sign {phrase : Phrase} {tokens : List Token} {value : phrase.Value}
    (h : Derives phrase tokens value) (hatoms : phrase ≠ .atoms) (hitems : phrase ≠ .items)
    {text rest mid : List Char} {text' : String} (hb : (sign text').Begins text mid)
    (hne : text' ≠ "(") : ¬ Spells tokens text rest := by
  obtain ⟨token, more, rfl, htoken⟩ := h.exists_head hatoms hitems
  rintro ⟨mid', hb', -⟩
  obtain ⟨rfl, -⟩ := hb.unique hb'
  rcases htoken with ⟨name, hname⟩ | hsign
  · cases hname
  · exact hne (Token.sign.inj hsign)

/-! ## What the rules read can be derived -/

/-- What the rule reads is spelled by tokens that derive the phrase. -/
def Sound (phrase : Phrase) (rule : Rule phrase.Value) : Prop :=
  ∀ ⦃text value rest⦄, Reads rule text value rest →
    ∃ tokens, Spells tokens text rest ∧ Derives phrase tokens value

theorem Sound.shrinks {phrase : Phrase} {rule : Rule phrase.Value} (h : Sound phrase rule)
    (hatoms : phrase ≠ .atoms) (hitems : phrase ≠ .items) : Shrinks rule := by
  intro text value rest hr
  obtain ⟨tokens, hs, hd⟩ := h hr
  obtain ⟨token, more, rfl, -⟩ := hd.exists_head hatoms hitems
  obtain ⟨mid, hb, hm⟩ := hs
  exact lt_of_le_of_lt hm.length_le hb.length_lt

theorem Sound.many_atom {atom : Rule TypeExpr} (h : Sound .atom atom) :
    Sound .atoms (many atom) := by
  intro text values rest hr
  replace hr := (reads_many (h.shrinks nofun nofun)).mp hr
  induction hr with
  | stop => exact ⟨[], rfl, .noAtoms⟩
  | step hr _ ih =>
    obtain ⟨tokens, hs, hd⟩ := h hr
    obtain ⟨tokens', hs', hd'⟩ := ih
    exact ⟨tokens ++ tokens', spells_append.mpr ⟨_, hs, hs'⟩, .moreAtoms hd hd'⟩

theorem shrinks_comma_type {type : Rule TypeExpr} (h : Shrinks type) :
    Shrinks (do let _ ← symbol ","; type) :=
  (shrinks_symbol (by decide)).bind fun _ _ _ _ hr => le_of_lt (h hr)

theorem Sound.many_items {type : Rule TypeExpr} (h : Sound .type type) :
    Sound .items (many (do let _ ← symbol ","; type)) := by
  intro text values rest hr
  replace hr := (reads_many (shrinks_comma_type (h.shrinks nofun nofun))).mp hr
  induction hr with
  | stop => exact ⟨[], rfl, .noItems⟩
  | step hr _ ih =>
    obtain ⟨_, mid, hcomma, htype⟩ := reads_bind.mp hr
    obtain ⟨-, hb⟩ := (reads_symbol (by decide)).mp hcomma
    obtain ⟨tokens, hs, hd⟩ := h htype
    obtain ⟨tokens', hs', hd'⟩ := ih
    refine ⟨sign "," :: tokens ++ tokens', ⟨mid, hb, ?_⟩, .moreItems hd hd'⟩
    exact spells_append.mpr ⟨_, hs, hs'⟩

theorem Sound.parenthesizedOver {type : Rule TypeExpr} (h : Sound .type type) :
    Sound .atom (parenthesizedOver type) := by
  intro text value rest hr
  have hshrinks := shrinks_comma_type (h.shrinks nofun nofun)
  obtain ⟨_, mid, hopen, hr⟩ := reads_bind.mp (reads_expected.mp hr)
  obtain ⟨types, mid', htypes, hr⟩ := reads_bind.mp hr
  obtain ⟨_, mid'', hclose, hr⟩ := reads_bind.mp hr
  obtain ⟨rfl, rfl⟩ := reads_pure.mp hr
  obtain ⟨-, hopen⟩ := (reads_symbol (by decide)).mp hopen
  obtain ⟨-, hclose⟩ := (reads_symbol (by decide)).mp hclose
  rcases reads_sepBy.mp htypes with htypes | ⟨-, rfl, rfl⟩
  · obtain ⟨first, more, after, rfl, hfirst, hmore⟩ := (reads_sepBy1 hshrinks).mp htypes
    obtain ⟨tokens, hs, hd⟩ := h hfirst
    obtain ⟨tokens', hs', hd'⟩ := h.many_items ((reads_many hshrinks).mpr hmore)
    have hlist : Spells (tokens ++ tokens') mid mid' := spells_append.mpr ⟨after, hs, hs'⟩
    -- one type stands for itself, more are a tuple
    cases more with
    | nil =>
      cases hd'
      refine ⟨sign "(" :: tokens ++ [sign ")"], ⟨mid, hopen, ?_⟩, .parentheses hd⟩
      rw [List.append_nil] at hlist
      exact spells_append.mpr ⟨mid', hlist, spells_singleton.mpr hclose⟩
    | cons second more =>
      refine ⟨sign "(" :: tokens ++ tokens' ++ [sign ")"], ⟨mid, hopen, ?_⟩, .tuple hd hd'⟩
      exact spells_append.mpr ⟨mid', hlist, spells_singleton.mpr hclose⟩
  · exact ⟨[sign "(", sign ")"], ⟨_, hopen, spells_singleton.mpr hclose⟩, .unit⟩

theorem Sound.atomOver {type : Rule TypeExpr} (h : Sound .type type) :
    Sound .atom (atomOver type) := by
  intro text value rest hr
  rcases reads_choice_pair.mp hr with hr | ⟨-, hr⟩
  · obtain ⟨name, mid, hname, hr⟩ := reads_bind.mp hr
    obtain ⟨rfl, rfl⟩ := reads_pure.mp hr
    exact ⟨[word name], spells_singleton.mpr (reads_identifier.mp hname), .name⟩
  · exact h.parenthesizedOver hr

theorem Sound.applicationOver {type : Rule TypeExpr} (h : Sound .type type) :
    Sound .application (applicationOver type) := by
  intro text value rest hr
  obtain ⟨name, mid, hname, hr⟩ := reads_bind.mp hr
  obtain ⟨args, mid', hargs, hr⟩ := reads_bind.mp hr
  obtain ⟨rfl, rfl⟩ := reads_pure.mp hr
  obtain ⟨tokens, hs, hd⟩ := h.atomOver.many_atom hargs
  exact ⟨word name :: tokens, ⟨mid, reads_identifier.mp hname, hs⟩, .application hd⟩

/-- After a domain: either there is an arrow and a codomain, or nothing is read. -/
theorem reads_arrowTailOver {type : Rule TypeExpr} {domain value : TypeExpr}
    {text rest : List Char} :
    Reads (arrowTailOver type domain) text value rest ↔
      (∃ mid codomain, (sign "->").Begins text mid ∧ Reads type mid codomain rest ∧
        value = .arrow domain codomain) ∨
      (∀ mid, ¬ (sign "->").Begins text mid) ∧ value = domain ∧ rest = text := by
  have harrow : ∀ {mid value}, Reads (symbol "->") text value mid ↔
      value = "->" ∧ (sign "->").Begins text mid := reads_symbol (by decide)
  constructor
  · intro h
    obtain ⟨found, mid, hmaybe, hr⟩ := reads_bind.mp h
    cases found with
    | some found =>
      obtain ⟨codomain, mid', hcodomain, hr⟩ := reads_bind.mp hr
      obtain ⟨rfl, rfl⟩ := reads_pure.mp hr
      have hb := (harrow.mp (reads_maybe_some.mp hmaybe)).2
      exact .inl ⟨mid, codomain, hb, reads_expected.mp hcodomain, rfl⟩
    | none =>
      obtain ⟨hno, rfl⟩ := reads_maybe_none.mp hmaybe
      obtain ⟨rfl, rfl⟩ := reads_pure.mp hr
      exact .inr ⟨fun mid hb => hno _ _ (harrow.mpr ⟨rfl, hb⟩), rfl, rfl⟩
  · rintro (⟨mid, codomain, hb, hcodomain, rfl⟩ | ⟨hno, rfl, rfl⟩)
    · refine reads_bind.mpr ⟨some "->", mid, reads_maybe_some.mpr (harrow.mpr ⟨rfl, hb⟩), ?_⟩
      exact reads_bind.mpr ⟨codomain, rest, reads_expected.mpr hcodomain, reads_pure.mpr ⟨rfl, rfl⟩⟩
    · refine reads_bind.mpr ⟨none, rest, reads_maybe_none.mpr ⟨?_, rfl⟩, reads_pure.mpr ⟨rfl, rfl⟩⟩
      exact refuses_symbol (by decide) hno

theorem Sound.typeExprOver {type : Rule TypeExpr} (h : Sound .type type) :
    Sound .type (typeExprOver type) := by
  intro text value rest hr
  obtain ⟨domain, mid, hdomain, htail⟩ := reads_bind.mp hr
  rcases reads_arrowTailOver.mp htail with ⟨mid', codomain, harrow, hcodomain, rfl⟩ | ⟨-, rfl, rfl⟩
  · obtain ⟨tokens', hs', hd'⟩ := h hcodomain
    rcases reads_choice_pair.mp hdomain with hdomain | ⟨-, hdomain⟩
    · obtain ⟨tokens, hs, hd⟩ := h.applicationOver hdomain
      exact ⟨_, spells_append.mpr ⟨mid, hs, spells_cons.mpr ⟨mid', harrow, hs'⟩⟩,
        .applicationArrow hd hd'⟩
    · obtain ⟨tokens, hs, hd⟩ := h.atomOver hdomain
      exact ⟨_, spells_append.mpr ⟨mid, hs, spells_cons.mpr ⟨mid', harrow, hs'⟩⟩,
        .atomArrow hd hd'⟩
  · rcases reads_choice_pair.mp hdomain with hdomain | ⟨-, hdomain⟩
    · obtain ⟨tokens, hs, hd⟩ := h.applicationOver hdomain
      exact ⟨tokens, hs, .ofApplication hd⟩
    · obtain ⟨tokens, hs, hd⟩ := h.atomOver hdomain
      exact ⟨tokens, hs, .ofAtom hd⟩

theorem sound_typeExpr : Sound .type typeExpr := by
  intro text value rest hr
  refine reads_recursive_of (P := fun text value rest =>
    ∃ tokens, Spells tokens text rest ∧ Derives .type tokens value) ?_ hr
  intro rule ih text value rest h
  have hrule : Sound .type rule := fun text value rest hr => ih text value rest hr
  exact hrule.typeExprOver h

/-- What the rule of a phrase reads is spelled by tokens that derive the phrase. -/
theorem sound (phrase : Phrase) : Sound phrase phrase.rule := by
  cases phrase with
  | type => exact sound_typeExpr
  | application => exact sound_typeExpr.applicationOver
  | atom => exact sound_typeExpr.atomOver
  | atoms => exact sound_typeExpr.atomOver.many_atom
  | items => exact sound_typeExpr.many_items

theorem shrinks_typeExpr : Shrinks typeExpr := sound_typeExpr.shrinks nofun nofun

theorem shrinks_atom : Shrinks atom := sound_typeExpr.atomOver.shrinks nofun nofun

/-! ## The recursive rule is a fixed point of its definition

A nested type stands after a parenthesis or an arrow, hence in a shorter text, so the test that
guards the recursion never fails.
-/

section Local

variable {length : Nat} {type type' : Rule TypeExpr}

theorem agree_parenthesizedOver (h : AgreeBelow length type type') (hs : Shrinks type') :
    AgreeBelow (length + 1) (parenthesizedOver type) (parenthesizedOver type') := by
  intro text hlt
  refine expected_congr_at (bind_congr_at rfl fun _ mid hopen => ?_)
  have hmid : mid.length < length := by
    have := shrinks_symbol (by decide) hopen
    omega
  have hcomma : AgreeBelow length (do let _ ← symbol ","; type) (do let _ ← symbol ","; type') := by
    intro text hlt
    refine bind_congr_at rfl fun _ rest hr => h rest ?_
    have := shrinks_symbol (by decide) hr
    omega
  have hsepBy1 : sepBy1 (symbol ",") type mid = sepBy1 (symbol ",") type' mid := by
    refine bind_congr_at (h mid hmid) fun _ rest hr => ?_
    have := hs hr
    exact bind_congr_at (hcomma.many rest (by omega)) fun _ _ _ => rfl
  have hsepBy : sepBy (symbol ",") type mid = sepBy (symbol ",") type' mid := by
    unfold sepBy
    rw [hsepBy1]
  exact bind_congr_at hsepBy fun _ _ _ => rfl

theorem agree_atomOver (h : AgreeBelow length type type') (hs : Shrinks type') :
    AgreeBelow (length + 1) (atomOver type) (atomOver type') :=
  fun text hlt => choice_pair_congr_at rfl (agree_parenthesizedOver h hs text hlt)

theorem agree_applicationOver (h : AgreeBelow length type type') (hs : Shrinks type') :
    AgreeBelow (length + 1) (applicationOver type) (applicationOver type') := by
  intro text hlt
  refine bind_congr_at rfl fun _ mid hname => ?_
  have := shrinks_identifier hname
  exact bind_congr_at ((agree_atomOver h hs).many mid (by omega)) fun _ _ _ => rfl

theorem agree_typeExprOver (h : AgreeBelow length type type') (hs : Sound .type type') :
    AgreeBelow (length + 1) (typeExprOver type) (typeExprOver type') := by
  intro text hlt
  have hshrinks := hs.shrinks nofun nofun
  refine bind_congr_at (choice_pair_congr_at (agree_applicationOver h hshrinks text hlt)
    (agree_atomOver h hshrinks text hlt)) fun domain mid hdomain => ?_
  have hmid : mid.length < text.length :=
    (hs.applicationOver.shrinks nofun nofun).choice_pair (hs.atomOver.shrinks nofun nofun) hdomain
  refine bind_congr_at rfl fun found rest hfound => ?_
  cases found with
  | none => rfl
  | some found =>
    have := shrinks_symbol (by decide) (reads_maybe_some.mp hfound)
    exact bind_congr_at (expected_congr_at (h rest (by omega))) fun _ _ _ => rfl

end Local

/-- A type is read as its definition says, with types of any depth inside. -/
theorem typeExpr_eq : typeExpr = typeExprOver typeExpr :=
  recursive_eq fun _ _ h => agree_typeExprOver h sound_typeExpr

/-! ## What can be derived is read -/

/-- No atom stands at the front of the text. -/
def NoAtom (text : List Char) : Prop :=
  ∀ ⦃tokens value rest⦄, Derives .atom tokens value → ¬ Spells tokens text rest

/-- The phrase cannot go on in the text that follows its tokens.  A type could go on with an arrow,
or with an atom that makes a longer type. -/
def Phrase.Stops : Phrase → List Token → List Char → Prop
  | .type, tokens, rest =>
    (∀ mid, ¬ (sign "->").Begins rest mid) ∧
      ∀ ⦃more atom mid⦄, Derives .atom more atom → Spells more rest mid →
        ∀ type, ¬ Derives .type (tokens ++ more) type
  | .application, _, rest | .atoms, _, rest => NoAtom rest
  | .atom, _, _ => True
  | .items, _, rest => ∃ mid, (sign ")").Begins rest mid

theorem noAtom_of_begins {text mid : List Char} {text' : String}
    (h : (sign text').Begins text mid) (hne : text' ≠ "(") : NoAtom text :=
  fun _ _ _ hd => hd.not_spells_of_sign nofun nofun h hne

theorem noAtom_of_blank {text : List Char} (h : ∀ c ∈ text, Text.isBlank c = true) :
    NoAtom text := by
  intro tokens value rest hd hs
  obtain ⟨token, more, rfl, -⟩ := hd.exists_head nofun nofun
  obtain ⟨mid, hb, -⟩ := hs
  exact not_begins_of_blank h hb

theorem NoAtom.refuses {text : List Char} (h : NoAtom text) : Refuses atom text := by
  intro value rest hr
  obtain ⟨tokens, hs, hd⟩ := sound .atom hr
  exact h hd hs

/-- Where neither an arrow nor an atom stands, a type is over. -/
theorem NoAtom.stops_type {tokens : List Token} {rest : List Char} (h : NoAtom rest)
    (harrow : ∀ mid, ¬ (sign "->").Begins rest mid) : Phrase.type.Stops tokens rest :=
  ⟨harrow, fun _ _ _ hd hs => absurd hs (h hd)⟩

/-- A sign other than `(` and `->` ends a type. -/
theorem stops_type_of_begins {tokens : List Token} {rest mid : List Char} {text : String}
    (h : (sign text).Begins rest mid) (hopen : text ≠ "(") (harrow : text ≠ "->") :
    Phrase.type.Stops tokens rest :=
  (noAtom_of_begins h hopen).stops_type fun _ hb => harrow (Token.sign.inj (h.unique hb).1)

/-- An application takes one more atom. -/
theorem Derives.append_atom {phrase : Phrase} {tokens : List Token} {value : phrase.Value}
    (h : Derives phrase tokens value) (hphrase : phrase = .application ∨ phrase = .atoms)
    {tokens' : List Token} {atom : TypeExpr} (ha : Derives .atom tokens' atom) :
    ∃ value' : phrase.Value, Derives phrase (tokens ++ tokens') value' := by
  induction h with
  | application _ ih =>
    obtain ⟨args, hargs⟩ := ih (.inr rfl)
    exact ⟨_, .application hargs⟩
  | noAtoms => exact ⟨[atom], by simpa using Derives.moreAtoms ha .noAtoms⟩
  | moreAtoms hd _ _ ih =>
    obtain ⟨args, hargs⟩ := ih (.inr rfl)
    rw [List.append_assoc]
    exact ⟨_, .moreAtoms hd hargs⟩
  | _ => simp at hphrase

theorem refuses_application {text mid : List Char} {text' : String}
    (h : (sign text').Begins text mid) : Refuses application text := by
  intro value rest hr
  obtain ⟨name, mid', hname, -⟩ := reads_bind.mp hr
  exact h.refuses_identifier name mid' hname

/-- An atom is read where a type or the domain of an arrow may stand; a name is first tried as an
application, which must not find arguments. -/
theorem reads_domain_of_atom {tokens : List Token} {value : TypeExpr}
    (h : Derives .atom tokens value) {text rest : List Char} (hs : Spells tokens text rest)
    (hr : Reads atom text value rest) (hno : ∀ name, tokens = [word name] → NoAtom rest) :
    Reads (choice [application, atom]) text value rest := by
  refine reads_choice_pair.mpr ?_
  have hparenthesis : ∀ {more : List Token}, Spells (sign "(" :: more) text rest →
      Refuses application text := by
    rintro more ⟨mid, hb, -⟩
    exact refuses_application hb
  cases h with
  | name =>
    rename_i name
    have hmany : Reads (many atom) rest [] rest :=
      (reads_many shrinks_atom).mpr (.stop (hno name rfl).refuses)
    refine .inl (reads_bind.mpr ⟨name, rest, reads_identifier.mpr (spells_singleton.mp hs), ?_⟩)
    exact reads_bind.mpr ⟨[], rest, hmany, reads_pure.mpr ⟨rfl, rfl⟩⟩
  | unit => exact .inr ⟨hparenthesis hs, hr⟩
  | parentheses => exact .inr ⟨hparenthesis hs, hr⟩
  | tuple => exact .inr ⟨hparenthesis hs, hr⟩

theorem reads_typeExpr {text rest : List Char} {value : TypeExpr} :
    Reads typeExpr text value rest ↔
      ∃ domain mid, Reads (choice [application, atom]) text domain mid ∧
        Reads (arrowTail domain) mid value rest := by
  have hunfold : Reads typeExpr text value rest ↔
      Reads (typeExprOver typeExpr) text value rest := by rw [← typeExpr_eq]
  exact hunfold.trans reads_bind

/-- A type that is a domain alone. -/
theorem reads_typeExpr_of_domain {text rest : List Char} {value : TypeExpr}
    (h : Reads (choice [application, atom]) text value rest)
    (harrow : ∀ mid, ¬ (sign "->").Begins rest mid) : Reads typeExpr text value rest :=
  reads_typeExpr.mpr ⟨value, rest, h, reads_arrowTailOver.mpr (.inr ⟨harrow, rfl, rfl⟩)⟩

theorem reads_typeExpr_of_arrow {text mid mid' rest : List Char} {domain codomain : TypeExpr}
    (h : Reads (choice [application, atom]) text domain mid)
    (harrow : (sign "->").Begins mid mid') (hc : Reads typeExpr mid' codomain rest) :
    Reads typeExpr text (.arrow domain codomain) rest :=
  reads_typeExpr.mpr ⟨domain, mid, h,
    reads_arrowTailOver.mpr (.inl ⟨mid', codomain, harrow, hc, rfl⟩)⟩

/-- A codomain ends where the function type does. -/
theorem stops_codomain {tokens tokens' : List Token} {rest : List Char}
    (h : Phrase.type.Stops (tokens ++ sign "->" :: tokens') rest)
    (harrow : ∀ codomain more, Derives .type (tokens' ++ more) codomain →
      ∃ type, Derives .type (tokens ++ sign "->" :: (tokens' ++ more)) type) :
    Phrase.type.Stops tokens' rest := by
  refine ⟨h.1, fun more atom mid hd hs codomain hc => ?_⟩
  obtain ⟨type, ht⟩ := harrow codomain more hc
  refine h.2 hd hs type ?_
  rw [List.append_assoc, List.cons_append]
  exact ht

/-- What stands between parentheses is read as a whole. -/
theorem reads_atom_of_parentheses {text mid mid' rest : List Char} {types : List TypeExpr}
    (hopen : (sign "(").Begins text mid)
    (htypes : Reads (sepBy (symbol ",") typeExpr) mid types mid')
    (hclose : (sign ")").Begins mid' rest) : Reads atom text (ofComponents types) rest := by
  have hname : Refuses typeName text := by
    intro value rest' hr
    obtain ⟨name, mid'', hname, -⟩ := reads_bind.mp hr
    exact hopen.refuses_identifier name mid'' hname
  refine reads_choice_pair.mpr (.inr ⟨hname, reads_expected.mpr ?_⟩)
  refine reads_bind.mpr ⟨"(", mid, (reads_symbol (by decide)).mpr ⟨rfl, hopen⟩, ?_⟩
  refine reads_bind.mpr ⟨types, mid', htypes, ?_⟩
  refine reads_bind.mpr ⟨")", rest, (reads_symbol (by decide)).mpr ⟨rfl, hclose⟩, ?_⟩
  exact reads_pure.mpr ⟨rfl, rfl⟩

theorem reads_sepBy_of_items {text mid rest : List Char} {first : TypeExpr}
    {more : List TypeExpr} (hfirst : Reads typeExpr text first mid)
    (hmore : Reads (many (do let _ ← symbol ","; typeExpr)) mid more rest) :
    Reads (sepBy (symbol ",") typeExpr) text (first :: more) rest := by
  have hshrinks := shrinks_comma_type shrinks_typeExpr
  refine reads_sepBy.mpr (.inl ((reads_sepBy1 hshrinks).mpr ⟨first, more, mid, rfl, hfirst, ?_⟩))
  exact (reads_many hshrinks).mp hmore

/-- Where the parenthesis closes there are no more items. -/
theorem reads_no_items {text mid : List Char} (hclose : (sign ")").Begins text mid) :
    Reads (many (do let _ ← symbol ","; typeExpr)) text [] text := by
  refine (reads_many (shrinks_comma_type shrinks_typeExpr)).mpr (.stop ?_)
  intro value rest hr
  obtain ⟨_, mid', hcomma, -⟩ := reads_bind.mp hr
  exact hclose.not_begins (by decide) ((reads_symbol (by decide)).mp hcomma).2

/-- Where the parenthesis closes at once there are no types. -/
theorem reads_no_types {text mid : List Char} (hclose : (sign ")").Begins text mid) :
    Reads (sepBy (symbol ",") typeExpr) text [] text := by
  refine reads_sepBy.mpr (.inr ⟨refuses_sepBy1.mpr fun value rest hr => ?_, rfl, rfl⟩)
  obtain ⟨tokens, hs, hd⟩ := sound .type hr
  exact hd.not_spells_of_sign nofun nofun hclose (by decide) hs

/-- The items of a tuple begin with a comma, or there are none and the parenthesis closes. -/
theorem Derives.begins_of_items {tokens : List Token} {types : List TypeExpr}
    (h : Derives .items tokens types) {text rest mid : List Char} (hs : Spells tokens text rest)
    (hclose : (sign ")").Begins rest mid) :
    ∃ mid', (sign ",").Begins text mid' ∨ (sign ")").Begins text mid' := by
  cases h with
  | noItems => exact ⟨mid, .inr (spells_nil.mp hs ▸ hclose)⟩
  | moreItems =>
    obtain ⟨mid', hb, -⟩ := spells_cons.mp hs
    exact ⟨mid', .inl hb⟩

theorem Derives.stops_type_of_items {tokens tokens' : List Token} {types : List TypeExpr}
    (h : Derives .items tokens types) {text rest mid : List Char} (hs : Spells tokens text rest)
    (hclose : (sign ")").Begins rest mid) : Phrase.type.Stops tokens' text := by
  obtain ⟨mid', hb | hb⟩ := h.begins_of_items hs hclose
  · exact stops_type_of_begins hb (by decide) (by decide)
  · exact stops_type_of_begins hb (by decide) (by decide)

/-- Tokens that derive a phrase are read as the value derived, where the phrase cannot go on. -/
theorem complete {phrase : Phrase} {tokens : List Token} {value : phrase.Value}
    (h : Derives phrase tokens value) : ∀ {text rest : List Char}, Spells tokens text rest →
      phrase.Stops tokens rest → Reads phrase.rule text value rest := by
  induction h with
  | applicationArrow hd _ ih ih' =>
    intro text rest hs hstop
    obtain ⟨mid, hs, mid', harrow, hs'⟩ := spells_append.mp hs
    have hdomain := ih hs (noAtom_of_begins harrow (by decide))
    refine reads_typeExpr_of_arrow (reads_choice_pair.mpr (.inl hdomain)) harrow (ih' hs' ?_)
    exact stops_codomain hstop fun _ _ hc => ⟨_, .applicationArrow hd hc⟩
  | atomArrow hd _ ih ih' =>
    intro text rest hs hstop
    obtain ⟨mid, hs, mid', harrow, hs'⟩ := spells_append.mp hs
    have hdomain := reads_domain_of_atom hd hs (ih hs trivial)
      fun _ _ => noAtom_of_begins harrow (by decide)
    refine reads_typeExpr_of_arrow hdomain harrow (ih' hs' ?_)
    exact stops_codomain hstop fun _ _ hc => ⟨_, .atomArrow hd hc⟩
  | ofApplication hd ih =>
    intro text rest hs hstop
    -- an atom that followed would be one more argument
    have hno : NoAtom rest := by
      intro more atom mid ha hm
      obtain ⟨longer, hlonger⟩ := hd.append_atom (.inl rfl) ha
      exact hstop.2 ha hm longer (.ofApplication hlonger)
    exact reads_typeExpr_of_domain (reads_choice_pair.mpr (.inl (ih hs hno))) hstop.1
  | ofAtom hd ih =>
    intro text rest hs hstop
    refine reads_typeExpr_of_domain (reads_domain_of_atom hd hs (ih hs trivial) ?_) hstop.1
    -- a name with an atom after it would be an application
    rintro name rfl more atom mid ha hm
    obtain ⟨args, hargs⟩ := Derives.noAtoms.append_atom (.inr rfl) ha
    exact hstop.2 ha hm _ (.ofApplication (.application hargs))
  | application _ ih =>
    intro text rest hs hstop
    obtain ⟨mid, hname, hs⟩ := spells_cons.mp hs
    refine reads_bind.mpr ⟨_, mid, reads_identifier.mpr hname, ?_⟩
    exact reads_bind.mpr ⟨_, rest, ih hs hstop, reads_pure.mpr ⟨rfl, rfl⟩⟩
  | noAtoms =>
    intro text rest hs hstop
    obtain rfl := spells_nil.mp hs
    exact (reads_many shrinks_atom).mpr (.stop hstop.refuses)
  | moreAtoms _ _ ih ih' =>
    intro text rest hs hstop
    obtain ⟨mid, hs, hs'⟩ := spells_append.mp hs
    refine (reads_many shrinks_atom).mpr (.step (ih hs trivial) ?_)
    exact (reads_many shrinks_atom).mp (ih' hs' hstop)
  | name =>
    intro text rest hs _
    have hname := reads_identifier.mpr (spells_singleton.mp hs)
    exact reads_choice_pair.mpr (.inl (reads_bind.mpr ⟨_, rest, hname, reads_pure.mpr ⟨rfl, rfl⟩⟩))
  | unit =>
    intro text rest hs _
    obtain ⟨mid, hopen, hclose⟩ := spells_cons.mp hs
    replace hclose := spells_singleton.mp hclose
    exact reads_atom_of_parentheses hopen (reads_no_types hclose) hclose
  | parentheses hd ih =>
    intro text rest hs _
    obtain ⟨mid, hopen, hs⟩ := spells_cons.mp hs
    obtain ⟨mid', hs, hclose⟩ := spells_append.mp hs
    replace hclose := spells_singleton.mp hclose
    have hfirst := ih hs (stops_type_of_begins hclose (by decide) (by decide))
    have htypes := reads_sepBy_of_items hfirst (reads_no_items hclose)
    exact reads_atom_of_parentheses hopen htypes hclose
  | tuple hd hd' ih ih' =>
    intro text rest hs _
    obtain ⟨mid'', hs, hclose⟩ := spells_append.mp hs
    obtain ⟨mid', hs, hs'⟩ := spells_append.mp hs
    obtain ⟨mid, hopen, hs⟩ := spells_cons.mp hs
    replace hclose := spells_singleton.mp hclose
    have hfirst := ih hs (hd'.stops_type_of_items hs' hclose)
    have hmore := ih' hs' ⟨rest, hclose⟩
    exact reads_atom_of_parentheses hopen (reads_sepBy_of_items hfirst hmore) hclose
  | noItems =>
    rintro text rest hs ⟨mid, hclose⟩
    obtain rfl := spells_nil.mp hs
    exact reads_no_items hclose
  | moreItems hd hd' ih ih' =>
    rintro text rest hs ⟨mid, hclose⟩
    obtain ⟨mid', hs, hs'⟩ := spells_append.mp hs
    obtain ⟨mid'', hcomma, hs⟩ := spells_cons.mp hs
    have hshrinks := shrinks_comma_type shrinks_typeExpr
    refine (reads_many hshrinks).mpr (.step (reads_bind.mpr ⟨",", mid'', ?_, ?_⟩)
      ((reads_many hshrinks).mp (ih' hs' ⟨mid, hclose⟩)))
    · exact (reads_symbol (by decide)).mpr ⟨rfl, hcomma⟩
    · exact ih hs (hd'.stops_type_of_items hs' hclose)

/-! ## Consequences -/

/-- An atom ends where it ends, whatever follows. -/
theorem Derives.atom_unique {tokens tokens' : List Token} {value value' : TypeExpr}
    (h : Derives .atom tokens value) (h' : Derives .atom tokens' value')
    {text rest rest' : List Char} (hs : Spells tokens text rest)
    (hs' : Spells tokens' text rest') : tokens = tokens' ∧ rest = rest' := by
  obtain ⟨-, rfl⟩ := (complete h hs trivial).unique (complete h' hs' trivial)
  exact ⟨hs.unique hs', rfl⟩

/-- A repetition of atoms reads all the atoms that can be derived in front. -/
theorem Derives.rest_le_of_atoms {tokens : List Token} {args : List TypeExpr}
    (h : Derives .atoms tokens args) {text rest rest' : List Char} {args' : List TypeExpr}
    (hs : Spells tokens text rest) (hr : Repeats atom text args' rest') :
    rest'.length ≤ rest.length := by
  induction hr generalizing tokens args with
  | stop hno =>
    cases h with
    | noAtoms => rw [spells_nil.mp hs]
    | moreAtoms hd _ =>
      obtain ⟨mid, hs, -⟩ := spells_append.mp hs
      exact absurd (complete hd hs trivial) (hno _ _)
  | step hr hrest ih =>
    cases h with
    | noAtoms =>
      obtain rfl := spells_nil.mp hs
      exact le_trans (hrest.length_le shrinks_atom) (le_of_lt (shrinks_atom hr))
    | moreAtoms hd hd' =>
      obtain ⟨mid, hs, hs'⟩ := spells_append.mp hs
      obtain ⟨-, rfl⟩ := (complete hd hs trivial).unique hr
      exact ih hd' hs'

theorem arrowTail_rest_le {domain value : TypeExpr} {text rest : List Char}
    (h : Reads (arrowTail domain) text value rest) : rest.length ≤ text.length := by
  rcases reads_arrowTailOver.mp h with ⟨mid, codomain, harrow, hcodomain, -⟩ | ⟨-, -, rfl⟩
  · exact le_of_lt (lt_trans (shrinks_typeExpr hcodomain) harrow.length_lt)
  · exact le_refl _

/-- The domain of a type that begins with an application goes at least as far as the application. -/
theorem domain_rest_le_of_application {tokens : List Token} {value domain : TypeExpr}
    (h : Derives .application tokens value) {text rest rest' : List Char}
    (hs : Spells tokens text rest) (hr : Reads (choice [application, atom]) text domain rest') :
    rest'.length ≤ rest.length := by
  cases h with
  | application hargs =>
    obtain ⟨mid, hname, hs⟩ := spells_cons.mp hs
    rcases reads_choice_pair.mp hr with hr | ⟨hno, -⟩
    · obtain ⟨name', mid', hname', hr⟩ := reads_bind.mp hr
      obtain ⟨args', mid'', hargs', hr⟩ := reads_bind.mp hr
      obtain ⟨rfl, rfl⟩ := reads_pure.mp hr
      obtain ⟨-, rfl⟩ := hname.unique (reads_identifier.mp hname')
      exact hargs.rest_le_of_atoms hs ((reads_many shrinks_atom).mp hargs')
    · -- a name is always read as an application
      obtain ⟨args', mid', hargs'⟩ := exists_reads_many atom mid
      have hread : Reads application text _ mid' :=
        reads_bind.mpr ⟨_, mid, reads_identifier.mpr hname,
          reads_bind.mpr ⟨args', mid', hargs', reads_pure.mpr ⟨rfl, rfl⟩⟩⟩
      exact absurd hread (hno _ _)

/-- A type whose domain is followed by an arrow is read as a function type. -/
theorem exists_codomain_of_arrow {text mid mid' rest : List Char} {domain value : TypeExpr}
    (hdomain : Reads (choice [application, atom]) text domain mid)
    (harrow : (sign "->").Begins mid mid') (hr : Reads typeExpr text value rest) :
    ∃ codomain, Reads typeExpr mid' codomain rest := by
  obtain ⟨domain', mid'', hdomain', htail⟩ := reads_typeExpr.mp hr
  obtain ⟨rfl, rfl⟩ := hdomain'.unique hdomain
  rcases reads_arrowTailOver.mp htail with ⟨after, codomain, harrow', hcodomain, -⟩ | ⟨hno, -⟩
  · obtain ⟨-, rfl⟩ := harrow.unique harrow'
    exact ⟨codomain, hcodomain⟩
  · exact absurd harrow (hno mid')

/-- A type is read at least as far as any derivation of a type goes. -/
theorem Derives.rest_le {phrase : Phrase} {tokens : List Token} {value : phrase.Value}
    (h : Derives phrase tokens value) (hphrase : phrase = .type) {text rest rest' : List Char}
    {value' : TypeExpr} (hs : Spells tokens text rest)
    (hr : Reads typeExpr text value' rest') : rest'.length ≤ rest.length := by
  induction h generalizing text value' with
  | applicationArrow hd _ _ ih =>
    obtain ⟨mid, hs, mid', harrow, hs'⟩ := spells_append.mp hs
    have hdomain := complete hd hs (noAtom_of_begins harrow (by decide))
    obtain ⟨codomain, hcodomain⟩ :=
      exists_codomain_of_arrow (reads_choice_pair.mpr (.inl hdomain)) harrow hr
    exact ih rfl hs' hcodomain
  | atomArrow hd _ _ ih =>
    obtain ⟨mid, hs, mid', harrow, hs'⟩ := spells_append.mp hs
    have hdomain := reads_domain_of_atom hd hs (complete hd hs trivial)
      fun _ _ => noAtom_of_begins harrow (by decide)
    obtain ⟨codomain, hcodomain⟩ := exists_codomain_of_arrow hdomain harrow hr
    exact ih rfl hs' hcodomain
  | ofApplication hd =>
    obtain ⟨domain, mid, hr, htail⟩ := reads_typeExpr.mp hr
    exact le_trans (arrowTail_rest_le htail) (domain_rest_le_of_application hd hs hr)
  | ofAtom hd =>
    obtain ⟨domain, mid, hr, htail⟩ := reads_typeExpr.mp hr
    refine le_trans (arrowTail_rest_le htail) ?_
    have hatom := complete hd hs trivial
    cases hd with
    | name => exact domain_rest_le_of_application (.application .noAtoms) hs hr
    | _ =>
      -- what begins with a parenthesis is no application
      obtain ⟨_, hopen, -⟩ := spells_cons.mp hs
      rcases reads_choice_pair.mp hr with hr | ⟨-, hr⟩
      · exact absurd hr (refuses_application hopen _ _)
      · rw [(hr.unique hatom).2]
  | _ => simp at hphrase

end Grammar

end AlgebraicData
