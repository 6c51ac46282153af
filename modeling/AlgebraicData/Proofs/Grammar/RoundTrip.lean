import AlgebraicData.Declaration.Printer
import AlgebraicData.Proofs.Grammar.Declaration

/-!
# Printing and parsing

A declaration can hold names that no text spells, and tuples that the grammar does not have.  Those
that hold neither are `WellFormed`, and printing and parsing are inverse to each other exactly
there:

* `Derives.wellFormed`, and its kin for the larger constructs — what is derived from a text is
  well-formed, since its names are tokens;
* `TypeExpr.WellFormed.printable`, and its kin — what is well-formed is printed as tokens that
  derive it.  Positional members are printed as atoms, so the derivation is greedy as it stands;
* a declaration is read back from its source exactly if it is well-formed.
-/

namespace AlgebraicData

open Token

/-! ## Well-formed declarations -/

/-- Every name in the type is a name of the grammar, and tuples have two components or more. -/
inductive TypeExpr.WellFormed : TypeExpr → Prop where
  | ref {name : String} {args : List TypeExpr} :
      IsName name → (∀ arg ∈ args, arg.WellFormed) → WellFormed (.ref name args)
  | tuple {items : List TypeExpr} :
      2 ≤ items.length → (∀ item ∈ items, item.WellFormed) → WellFormed (.tuple items)
  | arrow {domain codomain : TypeExpr} :
      domain.WellFormed → codomain.WellFormed → WellFormed (.arrow domain codomain)
  | unit : WellFormed .unit

/-- The name and the bound, if there is one, are well-formed. -/
def TypeParameter.WellFormed (p : TypeParameter) : Prop :=
  IsName p.name ∧ ∀ bound ∈ p.bound, bound.WellFormed

/-- The type and the name, if there is one, are well-formed. -/
def Member.WellFormed (m : Member) : Prop :=
  (∀ name ∈ m.name, IsName name) ∧ m.type.WellFormed

/-- Every name in the declaration is a name of the grammar, and so is every type in it. -/
def Declaration.WellFormed (d : Declaration) : Prop :=
  IsName d.name ∧ (∀ p ∈ d.parameters, p.WellFormed) ∧
    ∀ c ∈ d.constructors, IsName c.name ∧ ∀ m ∈ c.members, m.WellFormed

namespace Grammar

/-! ## What is derived is well-formed -/

/-- The types that a phrase stands for are well-formed. -/
def Phrase.WellFormed : (phrase : Phrase) → phrase.Value → Prop
  | .type, value | .application, value | .atom, value => TypeExpr.WellFormed value
  | .atoms, values | .items, values => ∀ value ∈ values, TypeExpr.WellFormed value

theorem Derives.wellFormed {phrase : Phrase} {tokens : List Token} {value : phrase.Value}
    (h : Derives phrase tokens value) (hlex : ∀ token ∈ tokens, token.IsLexical) :
    phrase.WellFormed value := by
  induction h with
  | applicationArrow _ _ ih ih' =>
    exact TypeExpr.WellFormed.arrow (ih fun t ht => hlex t (by simp [ht]))
      (ih' fun t ht => hlex t (by simp [ht]))
  | atomArrow _ _ ih ih' =>
    exact TypeExpr.WellFormed.arrow (ih fun t ht => hlex t (by simp [ht]))
      (ih' fun t ht => hlex t (by simp [ht]))
  | ofApplication _ ih => exact ih hlex
  | ofAtom _ ih => exact ih hlex
  | @application name _ _ _ ih =>
    refine TypeExpr.WellFormed.ref (hlex (word name) (by simp)) (ih fun t ht => ?_)
    exact hlex t (by simp [ht])
  | @name name => exact TypeExpr.WellFormed.ref (hlex (word name) (by simp)) (by simp)
  | unit => exact TypeExpr.WellFormed.unit
  | parentheses _ ih => exact ih fun t ht => hlex t (by simp [ht])
  | tuple _ _ ih ih' =>
    refine TypeExpr.WellFormed.tuple (by simp) (List.forall_mem_cons.mpr ⟨?_, ?_⟩)
    · exact ih fun t ht => hlex t (by simp [ht])
    · exact ih' fun t ht => hlex t (by simp [ht])
  | noAtoms => exact nofun
  | moreAtoms _ _ ih ih' =>
    refine List.forall_mem_cons.mpr ⟨?_, ?_⟩
    · exact ih fun t ht => hlex t (by simp [ht])
    · exact ih' fun t ht => hlex t (by simp [ht])
  | noItems => exact nofun
  | moreItems _ _ ih ih' =>
    refine List.forall_mem_cons.mpr ⟨?_, ?_⟩
    · exact ih fun t ht => hlex t (by simp [ht])
    · exact ih' fun t ht => hlex t (by simp [ht])

theorem DerivesParameter.wellFormed {tokens : List Token} {p : TypeParameter}
    (h : DerivesParameter tokens p) (hlex : ∀ token ∈ tokens, token.IsLexical) :
    p.WellFormed := by
  cases h with
  | @plain name => exact ⟨hlex (word name) (by simp), by simp⟩
  | @bounded name _ _ hd =>
    refine ⟨hlex (word name) (by simp), ?_⟩
    rintro _ ⟨⟩
    exact hd.wellFormed fun t ht => hlex t (by simp [ht])

theorem DerivesField.wellFormed {tokens : List Token} {m : Member} (h : DerivesField tokens m)
    (hlex : ∀ token ∈ tokens, token.IsLexical) : m.WellFormed := by
  obtain @⟨name, _, _, hd⟩ := h
  refine ⟨?_, hd.wellFormed fun t ht => hlex t (by simp [ht])⟩
  rintro _ ⟨⟩
  exact hlex (word name) (by simp)

theorem DerivesMembers.wellFormed {greedy : Bool} {tokens : List Token} {members : List Member}
    (h : DerivesMembers greedy tokens members) (hlex : ∀ token ∈ tokens, token.IsLexical) :
    ∀ m ∈ members, m.WellFormed := by
  induction h with
  | nil => exact List.forall_mem_nil _
  | atom hd _ ih =>
    refine List.forall_mem_cons.mpr ⟨⟨nofun, ?_⟩, ih fun t ht => hlex t (by simp [ht])⟩
    exact hd.wellFormed fun t ht => hlex t (by simp [ht])
  | arrow hd hdc _ _ ih =>
    refine List.forall_mem_cons.mpr ⟨⟨nofun, .arrow ?_ ?_⟩, ih fun t ht => hlex t (by simp [ht])⟩
    · exact hd.wellFormed fun t ht => hlex t (by simp [ht])
    · exact hdc.wellFormed fun t ht => hlex t (by simp [ht])

section Lists

variable {α : Type} {item : List Token → α → Prop} {P : α → Prop}

theorem Star.forall_of_lexical {tokens : List Token} {values : List α}
    (h : Star item tokens values)
    (hitem : ∀ {tokens value}, item tokens value → (∀ t ∈ tokens, t.IsLexical) → P value)
    (hlex : ∀ token ∈ tokens, token.IsLexical) : ∀ value ∈ values, P value := by
  induction h with
  | nil => exact List.forall_mem_nil _
  | cons hd _ ih =>
    refine List.forall_mem_cons.mpr ⟨?_, ih fun t ht => hlex t (by simp [ht])⟩
    exact hitem hd fun t ht => hlex t (by simp [ht])

theorem Separated.forall_of_lexical {separator : Token} {tokens : List Token} {values : List α}
    (h : Separated separator item tokens values)
    (hitem : ∀ {tokens value}, item tokens value → (∀ t ∈ tokens, t.IsLexical) → P value)
    (hlex : ∀ token ∈ tokens, token.IsLexical) : ∀ value ∈ values, P value := by
  induction h with
  | last hd => exact List.forall_mem_singleton.mpr (hitem hd hlex)
  | more hd _ ih =>
    refine List.forall_mem_cons.mpr ⟨?_, ih fun t ht => hlex t (by simp [ht])⟩
    exact hitem hd fun t ht => hlex t (by simp [ht])

end Lists

theorem DerivesConstructor.wellFormed {greedy : Bool} {tokens : List Token}
    {c : String × List Member} (h : DerivesConstructor greedy tokens c)
    (hlex : ∀ token ∈ tokens, token.IsLexical) :
    IsName c.1 ∧ ∀ m ∈ c.2, m.WellFormed := by
  cases h with
  | @record name _ _ hd =>
    refine ⟨hlex (word name) (by simp), ?_⟩
    exact hd.forall_of_lexical DerivesField.wellFormed fun t ht => hlex t (by simp [ht])
  | @positional name _ _ hd =>
    exact ⟨hlex (word name) (by simp), hd.wellFormed fun t ht => hlex t (by simp [ht])⟩

/-- What a text describes is well-formed. -/
theorem Describes.wellFormed {greedy : Bool} {text : List Char} {d : Declaration}
    (h : Describes greedy text d.reading) : d.WellFormed := by
  obtain ⟨tokens, rest, hs, -, hd⟩ := h
  have hlex := hs.isLexical
  generalize hreading : d.reading = r at hd
  obtain @⟨name, _, _, _, _, hp, hc⟩ := hd
  obtain ⟨rfl, rfl, rfl⟩ := Reading.mk.inj hreading
  refine ⟨hlex (word d.name) (by simp), ?_, fun c hmem => ?_⟩
  · exact hp.forall_of_lexical DerivesParameter.wellFormed fun t ht => hlex t (by simp [ht])
  · exact hc.forall_of_lexical DerivesConstructor.wellFormed (fun t ht => hlex t (by simp [ht]))
      _ (List.mem_map_of_mem hmem)

/-! ## Texts that spell tokens -/

/-- The text spells the tokens, whatever follows that does not go on with a name. -/
def Prints (tokens : List Token) (text : String) : Prop :=
  ∀ rest, continuesName rest = false → Spells tokens (text.toList ++ rest) rest

theorem prints_word {name : String} (h : IsName name) : Prints [word name] name :=
  fun _ hrest => spells_singleton.mpr ⟨[], by simp, rfl, h, hrest⟩

theorem prints_sign {text : String} (hmem : text ∈ signTexts) : Prints [sign text] text :=
  fun _ _ => spells_singleton.mpr ⟨[], by simp, rfl, hmem, trivial⟩

theorem Prints.append {tokens tokens' : List Token} {text text' : String}
    (h : Prints tokens text) (h' : Prints tokens' text')
    (hapart : continuesName text'.toList = false) :
    Prints (tokens ++ tokens') (text ++ text') := by
  intro rest hrest
  rw [String.toList_append, List.append_assoc]
  have hnext : continuesName (text'.toList ++ rest) = false := by
    cases hchars : text'.toList with
    | nil => exact hrest
    | cons c cs => rwa [hchars] at hapart
  exact spells_append.mpr ⟨_, h _ hnext, h' rest hrest⟩

/-- Nothing needs to stand between a sign and what follows. -/
theorem Prints.sign_append {tokens : List Token} {text text' : String} (hmem : text ∈ signTexts)
    (h : Prints tokens text') : Prints (sign text :: tokens) (text ++ text') := by
  intro rest hrest
  rw [String.toList_append, List.append_assoc]
  exact ⟨_, ⟨[], by simp, rfl, hmem, trivial⟩, h rest hrest⟩

theorem Prints.blank {tokens : List Token} {text : String} (h : Prints tokens text)
    (hne : tokens ≠ []) : Prints tokens (" " ++ text) := by
  intro rest hrest
  have hblank : ∀ c ∈ " ".toList, Text.isBlank c = true :=
    List.forall_mem_singleton.mpr (by decide)
  rw [String.toList_append, List.append_assoc, ← spells_skipBlanks hne, skipBlanks_append hblank]
  exact (spells_skipBlanks hne).mpr (h rest hrest)

theorem continuesName_blank (text : String) : continuesName (" " ++ text).toList = false := by
  rw [String.toList_append]
  rfl

theorem continuesName_sign {text : String} (hmem : text ∈ signTexts) (text' : String) :
    continuesName (text ++ text').toList = false := by
  obtain ⟨first, more, htext, hpunct, -⟩ := exists_first_of_mem_signTexts text hmem
  rw [String.toList_append, htext, List.cons_append, continuesName, isNameRest, hpunct]
  rfl

theorem prints_comma {tokens : List Token} {text : String} (hne : tokens ≠ [])
    (h : Prints tokens text) :
    Prints (sign "," :: tokens) (", " ++ text) ∧ continuesName (", " ++ text).toList = false := by
  rw [show ", " = "," ++ " " by decide, String.append_assoc]
  exact ⟨(h.blank hne).sign_append (by decide), continuesName_sign (by decide) _⟩

/-- A sign with a blank on either side. -/
theorem prints_spaced (text spaced : String) (hspaced : spaced = " " ++ text ++ " ")
    (hmem : text ∈ signTexts) {tokens : List Token} (hne : tokens ≠ []) {text' : String}
    (h : Prints tokens text') :
    Prints (sign text :: tokens) (spaced ++ text') ∧
      continuesName (spaced ++ text').toList = false := by
  rw [hspaced]
  simp only [String.append_assoc]
  exact ⟨((h.blank hne).sign_append hmem).blank (by simp), continuesName_blank _⟩

/-! ## What is well-formed is printed as tokens that derive it -/

/-- The type is printed as tokens that derive it, as an atom or an application where it is one. -/
def Printable (type : TypeExpr) : Prop :=
  ∃ tokens, Prints tokens type.source ∧ Derives .type tokens type ∧
    (type.isCompound = false → Derives .atom tokens type) ∧
    (type.isArrow = false → Derives .application tokens type ∨ Derives .atom tokens type)

theorem parentheses_prints {tokens : List Token} {type : TypeExpr} {text : String}
    (hprints : Prints tokens text) (hd : Derives .type tokens type) :
    Prints (sign "(" :: tokens ++ [sign ")"]) ("(" ++ text ++ ")") ∧
      Derives .atom (sign "(" :: tokens ++ [sign ")"]) type := by
  refine ⟨?_, .parentheses hd⟩
  exact (Prints.sign_append (by decide) hprints).append (prints_sign (by decide)) (by decide)

theorem Printable.atom {type : TypeExpr} (h : Printable type) :
    ∃ tokens, Prints tokens type.atomSource ∧ Derives .atom tokens type := by
  obtain ⟨tokens, hprints, hd, hatom, -⟩ := h
  rw [TypeExpr.atomSource, TypeExpr.parenthesizeIf]
  by_cases hcompound : type.isCompound = true
  · rw [if_pos hcompound]
    exact ⟨_, parentheses_prints hprints hd⟩
  · rw [if_neg hcompound]
    exact ⟨tokens, hprints, hatom (by simpa using hcompound)⟩

theorem Printable.arrow {domain codomain : TypeExpr} (h : Printable domain)
    (h' : Printable codomain) : Printable (.arrow domain codomain) := by
  obtain ⟨tokens', hprints', hd', -⟩ := h'
  have hne : tokens' ≠ [] := hd'.ne_nil nofun nofun
  obtain ⟨htail, hapart⟩ := prints_spaced "->" " -> " (by decide) (by decide) hne hprints'
  -- the domain is an application or an atom, in parentheses if it is an arrow
  have hdomain : ∃ tokens,
      Prints tokens (TypeExpr.parenthesizeIf domain.isArrow domain.source) ∧
        (Derives .application tokens domain ∨ Derives .atom tokens domain) := by
    obtain ⟨tokens, hprints, hd, -, happlication⟩ := h
    rw [TypeExpr.parenthesizeIf]
    by_cases harrow : domain.isArrow = true
    · rw [if_pos harrow]
      obtain ⟨hparens, hatom⟩ := parentheses_prints hprints hd
      exact ⟨_, hparens, .inr hatom⟩
    · rw [if_neg harrow]
      exact ⟨tokens, hprints, happlication (by simpa using harrow)⟩
  obtain ⟨tokens, hprints, hd⟩ := hdomain
  refine ⟨tokens ++ sign "->" :: tokens', ?_, ?_, nofun, nofun⟩
  · rw [TypeExpr.source, String.append_assoc]
    exact hprints.append htail hapart
  · rcases hd with hd | hd
    · exact .applicationArrow hd hd'
    · exact .atomArrow hd hd'

theorem exists_prints_arguments {args : List TypeExpr} (h : ∀ arg ∈ args, Printable arg) :
    ∃ tokens, Prints tokens (TypeExpr.argumentSource args) ∧ Derives .atoms tokens args ∧
      continuesName (TypeExpr.argumentSource args).toList = false := by
  induction args with
  | nil => exact ⟨[], fun _ _ => rfl, .noAtoms, rfl⟩
  | cons arg args ih =>
    obtain ⟨harg, hargs⟩ := List.forall_mem_cons.mp h
    obtain ⟨tokens, hprints, hd⟩ := harg.atom
    obtain ⟨tokens', hprints', hd', hapart⟩ := ih hargs
    have hne : tokens ≠ [] := hd.ne_nil nofun nofun
    rw [TypeExpr.argumentSource, ← TypeExpr.atomSource]
    refine ⟨_, (hprints.blank hne).append hprints' hapart, .moreAtoms hd hd', ?_⟩
    rw [String.append_assoc]
    exact continuesName_blank _

theorem Printable.ref {name : String} {args : List TypeExpr} (hname : IsName name)
    (h : ∀ arg ∈ args, Printable arg) : Printable (.ref name args) := by
  obtain ⟨tokens, hprints, hd, hapart⟩ := exists_prints_arguments h
  refine ⟨word name :: tokens, ?_, .ofApplication (.application hd), ?_,
    fun _ => .inl (.application hd)⟩
  · rw [TypeExpr.source]
    exact (prints_word hname).append hprints hapart
  · intro hcompound
    have hargs : args = [] := by simpa [TypeExpr.isCompound] using hcompound
    subst hargs
    cases hd
    exact .name

theorem exists_prints_items {items : List TypeExpr} {first : TypeExpr}
    (h : ∀ item ∈ first :: items, Printable item) :
    ∃ tokens tokens', Prints (tokens ++ tokens')
        (", ".intercalate (TypeExpr.itemSources (first :: items))) ∧
      Derives .type tokens first ∧ Derives .items tokens' items := by
  induction items generalizing first with
  | nil =>
    obtain ⟨tokens, hprints, hd, -⟩ := h first (by simp)
    refine ⟨tokens, [], ?_, hd, .noItems⟩
    rw [TypeExpr.itemSources, TypeExpr.itemSources, String.intercalate_singleton, List.append_nil]
    exact hprints
  | cons second items ih =>
    obtain ⟨hfirst, hitems⟩ := List.forall_mem_cons.mp h
    obtain ⟨tokens, hprints, hd, -⟩ := hfirst
    obtain ⟨tokens', tokens'', hprints', hd', hd''⟩ := ih hitems
    have hne : tokens' ++ tokens'' ≠ [] := by simp [hd'.ne_nil nofun nofun]
    refine ⟨tokens, sign "," :: tokens' ++ tokens'', ?_, hd, .moreItems hd' hd''⟩
    obtain ⟨hmore, hapart⟩ := prints_comma hne hprints'
    rw [TypeExpr.itemSources, TypeExpr.itemSources, String.intercalate_cons_cons,
      ← TypeExpr.itemSources, String.append_assoc]
    exact hprints.append hmore hapart

theorem Printable.tuple {items : List TypeExpr} (hlen : 2 ≤ items.length)
    (h : ∀ item ∈ items, Printable item) : Printable (.tuple items) := by
  obtain ⟨first, second, more, rfl⟩ : ∃ first second more, items = first :: second :: more := by
    match items, hlen with
    | first :: second :: more, _ => exact ⟨first, second, more, rfl⟩
  obtain ⟨tokens, tokens', hprints, hd, hd'⟩ := exists_prints_items h
  have hatom : Derives .atom (sign "(" :: tokens ++ tokens' ++ [sign ")"]) _ := .tuple hd hd'
  refine ⟨_, ?_, .ofAtom hatom, fun _ => hatom, fun _ => .inr hatom⟩
  rw [TypeExpr.source]
  exact (hprints.sign_append (by decide)).append (prints_sign (by decide)) (by decide)

theorem Printable.unit : Printable .unit := by
  refine ⟨_, ?_, .ofAtom .unit, fun _ => .unit, fun _ => .inr .unit⟩
  have hclose : Prints [sign ")"] ")" := prints_sign (by decide)
  have hboth : Prints [sign "(", sign ")"] ("(" ++ ")") := hclose.sign_append (by decide)
  exact hboth

end Grammar

theorem TypeExpr.WellFormed.printable {type : TypeExpr} (h : type.WellFormed) :
    Grammar.Printable type := by
  induction h with
  | ref hname _ ih => exact .ref hname ih
  | tuple hlen _ ih => exact .tuple hlen ih
  | arrow _ _ ih ih' => exact .arrow ih ih'
  | unit => exact .unit

namespace Grammar

/-! ## Lists of printed items -/

section PrintedLists

variable {α : Type} {item : List Token → α → Prop} {render : α → String}

/-- The item is printed as tokens that derive it. -/
def PrintsItem (item : List Token → α → Prop) (render : α → String) (value : α) : Prop :=
  ∃ tokens, tokens ≠ [] ∧ item tokens value ∧ Prints tokens (render value)

theorem exists_prints_star {values : List α} (h : ∀ value ∈ values, PrintsItem item render value) :
    ∃ tokens, Star item tokens values ∧
      Prints tokens (String.join (values.map fun value => " " ++ render value)) ∧
      continuesName (String.join (values.map fun value => " " ++ render value)).toList = false := by
  induction values with
  | nil => exact ⟨[], .nil, fun _ _ => rfl, rfl⟩
  | cons value values ih =>
    obtain ⟨⟨tokens, hne, hd, hprints⟩, hvalues⟩ := List.forall_mem_cons.mp h
    obtain ⟨tokens', hd', hprints', hapart⟩ := ih hvalues
    rw [List.map_cons, String.join_cons]
    refine ⟨tokens ++ tokens', .cons hd hd', (hprints.blank hne).append hprints' hapart, ?_⟩
    rw [String.append_assoc]
    exact continuesName_blank _

/-- Items print with a separator between them if the separator prints in front of any text. -/
theorem exists_prints_separated (text : String) {separator : Token} {values : List α}
    (hsep : ∀ {tokens text'}, tokens ≠ [] → Prints tokens text' →
      Prints (separator :: tokens) (text ++ text') ∧
        continuesName (text ++ text').toList = false)
    (hne : values ≠ []) (h : ∀ value ∈ values, PrintsItem item render value) :
    ∃ tokens, tokens ≠ [] ∧ Separated separator item tokens values ∧
      Prints tokens (text.intercalate (values.map render)) := by
  induction values with
  | nil => exact absurd rfl hne
  | cons value values ih =>
    obtain ⟨⟨tokens, hne', hd, hprints⟩, hvalues⟩ := List.forall_mem_cons.mp h
    cases values with
    | nil =>
      refine ⟨tokens, hne', .last hd, ?_⟩
      rw [List.map_singleton, String.intercalate_singleton]
      exact hprints
    | cons value' values =>
      obtain ⟨tokens', hne'', hd', hprints'⟩ := ih (by simp) hvalues
      obtain ⟨hmore, hapart⟩ := hsep hne'' hprints'
      refine ⟨tokens ++ separator :: tokens', by simp, .more hd hd', ?_⟩
      rw [List.map_cons, List.map_cons, String.intercalate_cons_cons, String.append_assoc,
        ← List.map_cons]
      exact hprints.append hmore hapart

theorem Separated.map {β : Type} {view : α → β} {item : List Token → β → Prop}
    {separator : Token} {tokens : List Token} {values : List α}
    (h : Separated separator (fun tokens value => item tokens (view value)) tokens values) :
    Separated separator item tokens (values.map view) := by
  induction h with
  | last hd => exact .last hd
  | more hd _ ih => exact .more hd ih

end PrintedLists

/-- Atoms one after another are members, and no codomain stands in front of another atom. -/
theorem Star.derivesMembers {greedy : Bool} {tokens : List Token} {members : List Member}
    (h : Star (fun tokens m => Derives .atom tokens m.type) tokens members)
    (hpositional : ∀ m ∈ members, m.name.isNone = true) :
    DerivesMembers greedy tokens members := by
  induction h with
  | nil => exact .nil
  | @cons _ _ m _ hd _ ih =>
    obtain ⟨hm, hmembers⟩ := List.forall_mem_cons.mp hpositional
    obtain ⟨name?, type⟩ := m
    obtain rfl := Option.isNone_iff_eq_none.mp hm
    exact .atom hd (ih hmembers)

end Grammar

/-! ## Declarations -/

open Grammar

theorem TypeParameter.WellFormed.printsItem {p : TypeParameter} (h : p.WellFormed) :
    PrintsItem DerivesParameter TypeParameter.source p := by
  obtain ⟨name, bound⟩ := p
  obtain ⟨hname, hbound⟩ := h
  cases bound with
  | none => exact ⟨[word name], by simp, .plain, prints_word hname⟩
  | some bound =>
    obtain ⟨tokens, hprints, hd, -⟩ := (hbound bound rfl).printable
    have hne : tokens ≠ [] := hd.ne_nil nofun nofun
    have hclose : Prints (tokens ++ [sign ")"]) (bound.source ++ ")") :=
      hprints.append (prints_sign (by decide)) (by decide)
    obtain ⟨hcolons, hapart⟩ :=
      prints_spaced "::" " :: " (by decide) (by decide) (by simp) hclose
    refine ⟨_, by simp, .bounded hd, ?_⟩
    rw [TypeParameter.source]
    simp only [String.append_assoc]
    exact ((prints_word hname).append hcolons hapart).sign_append (by decide)

theorem Member.WellFormed.printsItem_field {m : Member} (h : m.WellFormed)
    (hnamed : m.name.isSome = true) : PrintsItem DerivesField Member.fieldSource m := by
  obtain ⟨name?, type⟩ := m
  obtain ⟨hname, htype⟩ := h
  obtain ⟨name, rfl⟩ := Option.isSome_iff_exists.mp hnamed
  obtain ⟨tokens, hprints, hd, -⟩ := htype.printable
  obtain ⟨hcolons, hapart⟩ :=
    prints_spaced "::" " :: " (by decide) (by decide) (hd.ne_nil nofun nofun) hprints
  refine ⟨word name :: sign "::" :: tokens, by simp, .field hd, ?_⟩
  rw [Member.fieldSource, String.append_assoc]
  exact (prints_word (hname name rfl)).append hcolons hapart

theorem Constructor.printsItem_record {c : Constructor} (hname : IsName c.name)
    (hmembers : ∀ m ∈ c.members, m.WellFormed) (hrecord : c.isRecord = true) :
    PrintsItem (fun tokens (c : Constructor) => DerivesConstructor true tokens (c.name, c.members))
      Constructor.source c := by
  have hsource : c.source =
      c.name ++ " " ++ inBraces (", ".intercalate (c.members.map (·.fieldSource))) := by
    rw [Constructor.source, if_pos hrecord]
  simp only [Constructor.isRecord, Bool.and_eq_true, List.all_eq_true] at hrecord
  have hne : c.members ≠ [] := by simpa using hrecord.1
  obtain ⟨tokens, hne', hd, hprints⟩ := exists_prints_separated ", " prints_comma hne
    fun m hm => (hmembers m hm).printsItem_field (hrecord.2 m hm)
  have hbrace : Prints [sign closeBrace] (" " ++ closeBrace) :=
    (prints_sign (by decide)).blank (by simp)
  have hclose := hprints.append hbrace (continuesName_blank _)
  obtain ⟨hopen, hapart⟩ :=
    prints_spaced openBrace _ rfl (by decide) (by simp) hclose
  refine ⟨_, by simp, .record hd, ?_⟩
  rw [hsource, inBraces]
  simp only [String.append_assoc] at hopen hapart ⊢
  exact (prints_word hname).append hopen hapart

theorem Constructor.printsItem_positional {c : Constructor} (hname : IsName c.name)
    (hmembers : ∀ m ∈ c.members, m.WellFormed) (hrecord : c.isRecord = false) :
    PrintsItem (fun tokens (c : Constructor) => DerivesConstructor true tokens (c.name, c.members))
      Constructor.source c := by
  have hsource : c.source =
      c.name ++ String.join (c.members.map fun m => " " ++ m.type.atomSource) := by
    rw [Constructor.source, hrecord]
    rfl
  have hpositional : ∀ m ∈ c.members, m.name.isNone = true := by
    rcases c.uniform with hnamed | hnone
    · -- named members would make a record, so there are none
      have hnil : c.members = [] := by
        simpa [Constructor.isRecord, List.all_eq_true.mpr hnamed] using hrecord
      simp [hnil]
    · exact hnone
  have hatoms : ∀ m ∈ c.members, PrintsItem (fun tokens (m : Member) => Derives .atom tokens m.type)
      (fun m => m.type.atomSource) m := by
    intro m hm
    obtain ⟨tokens, hprints, hd⟩ := (hmembers m hm).2.printable.atom
    exact ⟨tokens, hd.ne_nil nofun nofun, hd, hprints⟩
  obtain ⟨tokens, hd, hprints, hapart⟩ := exists_prints_star hatoms
  refine ⟨word c.name :: tokens, by simp, .positional (hd.derivesMembers hpositional), ?_⟩
  rw [hsource]
  exact (prints_word hname).append hprints hapart

/-- The source of a well-formed declaration describes it. -/
theorem Declaration.WellFormed.describes {d : Declaration} (h : d.WellFormed) :
    Describes true d.source.toList d.reading := by
  obtain ⟨hname, hparameters, hconstructors⟩ := h
  obtain ⟨tokens, hp, hprints, hapart⟩ :=
    exists_prints_star fun p hp => (hparameters p hp).printsItem
  have hitems : ∀ c ∈ d.constructors, PrintsItem
      (fun tokens (c : Constructor) => DerivesConstructor true tokens (c.name, c.members))
      Constructor.source c := by
    intro c hc
    obtain ⟨hname, hmembers⟩ := hconstructors c hc
    cases hrecord : c.isRecord with
    | true => exact Constructor.printsItem_record hname hmembers hrecord
    | false => exact Constructor.printsItem_positional hname hmembers hrecord
  obtain ⟨tokens', hne, hc, hprints'⟩ := exists_prints_separated " | "
    (fun hne h => prints_spaced "|" " | " (by decide) (by decide) hne h) d.constructors_ne_nil
    hitems
  obtain ⟨hequals, hapart'⟩ := prints_spaced "=" " = " (by decide) (by decide) hne hprints'
  have hhead : Prints (word "data" :: word d.name :: tokens) _ :=
    (prints_word isName_data).append
      (((prints_word hname).append hprints hapart).blank (by simp)) (continuesName_blank _)
  have hwhole := hhead.append hequals hapart' [] rfl
  refine ⟨_, [], ?_, by simp, .declaration hp hc.map⟩
  rw [Declaration.source, show "data " = "data" ++ " " by decide]
  simp only [String.append_assoc, List.append_nil] at hwhole ⊢
  exact hwhole

/-- A declaration is read back from its own source exactly if it is well-formed, and every
declaration that is read is well-formed, so that reading its source gives it again. -/
theorem parse_source_iff_wellFormed :
    (∀ d : Declaration, parse d.source = .ok d ↔ d.WellFormed) ∧
      ∀ source d, parse source = .ok d → d.WellFormed ∧ parse d.source = .ok d := by
  have hread : ∀ source d, parse source = .ok d → d.WellFormed :=
    fun source d h => (parse_eq_ok_iff_describes.mp h).wellFormed
  have hprint : ∀ d : Declaration, d.WellFormed → parse d.source = .ok d :=
    fun d h => parse_eq_ok_iff_describes.mpr h.describes
  refine ⟨fun d => ⟨hread d.source d, hprint d⟩, fun source d h => ?_⟩
  exact ⟨hread source d h, hprint d (hread source d h)⟩

/-- The source of what is read need not be the text that was read. -/
theorem parse_source_of_compact_text :
    ∃ d, parse "data T a=C{f::(a)->T(a)}" = .ok d ∧
      d.source = "data T a = C { f :: a -> T a }" ∧ d.WellFormed ∧
      parse d.source = .ok d := by
  have hsource : (parse "data T a=C{f::(a)->T(a)}").map (·.source) =
      .ok "data T a = C { f :: a -> T a }" := by
    cbv
  cases hparse : parse "data T a=C{f::(a)->T(a)}" with
  | error failure =>
    rw [hparse] at hsource
    cases hsource
  | ok d =>
    rw [hparse] at hsource
    exact ⟨d, rfl, Except.ok.inj hsource, parse_source_iff_wellFormed.2 _ d hparse⟩

end AlgebraicData
