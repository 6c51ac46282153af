import AlgebraicData.Proofs.Grammar.ViablePrefix

/-!
# Which repeated name is reported

A text can follow the grammar and use a name twice.  The checks find the name first and look for its
second use afterwards, and what they report is about the text all the same:

* `Outline` — the names that a text declares, each with the place of its item.  `Outlines` is the
  grammar with places, and the rules read exactly the outline of the text (`outlines_iff_reads`).
* `Outline.FirstRepetition` — the repetition to be reported: that of a field comes before that of a
  parameter, and this before that of a constructor, and the place is that of the first item whose
  name an earlier item of its list has.
* `secondUse_of_firstRepeated?` — in front of the first repeated name all names differ, so that name
  is used once there, and its second use is where it is first repeated.
-/

namespace AlgebraicData

namespace Grammar

open Rule Token

/-! ## The second use of a name -/

/-- The name is that of the item at the place, which is the first of the list whose name an earlier
item has. -/
def IsFirstRepeated (uses : List (List Char × String)) (name : String) (place : List Char) : Prop :=
  ∃ before after, uses = before ++ (place, name) :: after ∧ (before.map (·.2)).Nodup ∧
    name ∈ before.map (·.2)

/-- A name that is used once in front of an item is used for the second time there. -/
theorem secondUse_append {before after : List (List Char × String)} {name : String}
    {place : List Char} (hnodup : (before.map (·.2)).Nodup) (hname : name ∈ before.map (·.2)) :
    secondUse name (before ++ (place, name) :: after) = some place := by
  have honce : (before.filter (·.2 == name)).length = 1 := by
    have hcount := List.count_eq_one_of_mem hnodup hname
    rw [List.count, List.countP_map, List.countP_eq_length_filter] at hcount
    exact hcount
  obtain ⟨use, huse⟩ := List.length_eq_one_iff.mp honce
  rw [secondUse, List.filter_append, huse]
  simp

theorem secondUse_of_firstRepeated? {uses : List (List Char × String)} {name : String}
    (h : firstRepeated? (uses.map (·.2)) = some name) :
    ∃ place, secondUse name uses = some place ∧ IsFirstRepeated uses name place := by
  obtain ⟨before, after, hnames, hnodup, hname⟩ := firstRepeated?_eq_some_iff.mp h
  -- the split of the names is a split of the items
  obtain ⟨before, rest, rfl, rfl, hrest⟩ := List.map_eq_append_iff.mp hnames
  obtain ⟨⟨place, name'⟩, after, rfl, rfl, -⟩ := List.map_eq_cons_iff.mp hrest
  exact ⟨place, secondUse_append hnodup hname, before, after, rfl, hnodup, hname⟩

/-! ## Names and places -/

/-- A constructor by its names: its own, and those of its fields with their places. -/
structure ConstructorOutline where
  name : String
  fields : List (List Char × String)

/-- The names that a text declares, with the places of parameters, constructors and fields. -/
structure Outline where
  name : String
  parameters : List (List Char × String)
  constructors : List (List Char × ConstructorOutline)

/-- `item*`, where each item stands at its place. -/
inductive StarAt {α : Type} (item : List Char → α → List Char → Prop) :
    List Char → List (List Char × α) → List Char → Prop where
  | nil {text : List Char} : StarAt item text [] text
  | cons {text mid rest : List Char} {value : α} {values : List (List Char × α)} :
      item text value mid → StarAt item mid values rest →
      StarAt item text ((Text.skipBlanks text, value) :: values) rest

/-- `item (separator item)*`, where each item stands at its place. -/
inductive SeparatedAt {α : Type} (separator : Token) (item : List Char → α → List Char → Prop) :
    List Char → List (List Char × α) → List Char → Prop where
  | last {text rest : List Char} {value : α} : item text value rest →
      SeparatedAt separator item text [(Text.skipBlanks text, value)] rest
  | more {text mid after rest : List Char} {value : α} {values : List (List Char × α)} :
      item text value mid → separator.Begins mid after →
      SeparatedAt separator item after values rest →
      SeparatedAt separator item text ((Text.skipBlanks text, value) :: values) rest

/-- A parameter with the name stands at the front of the text. -/
def ParameterNamed (text : List Char) (name : String) (rest : List Char) : Prop :=
  ∃ tokens p, Spells tokens text rest ∧ DerivesParameter tokens p ∧ p.name = name

/-- A field with the name stands at the front of the text. -/
def FieldNamed (text : List Char) (name : String) (rest : List Char) : Prop :=
  ∃ tokens type, Spells tokens text rest ∧ DerivesField tokens (.named name type)

/-- A constructor with these names stands at the front of the text. -/
inductive OutlinesConstructor : List Char → ConstructorOutline → List Char → Prop where
  | record {name : String} {text mid after last rest : List Char}
      {fields : List (List Char × String)} :
      (word name).Begins text mid → (sign openBrace).Begins mid after →
      SeparatedAt (sign ",") FieldNamed after fields last → (sign closeBrace).Begins last rest →
      OutlinesConstructor text ⟨name, fields⟩ rest
  | positional {name : String} {text mid rest : List Char} {tokens : List Token}
      {members : List Member} :
      (word name).Begins text mid → Spells tokens mid rest → DerivesMembers false tokens members →
      OutlinesConstructor text ⟨name, []⟩ rest

/-- The text declares these names at these places. -/
inductive Outlines : List Char → Outline → Prop where
  | declaration {name : String} {text afterData afterName beforeBody body rest : List Char}
      {parameters : List (List Char × String)}
      {constructors : List (List Char × ConstructorOutline)} :
      (word "data").Begins text afterData → (word name).Begins afterData afterName →
      StarAt ParameterNamed afterName parameters beforeBody → (sign "=").Begins beforeBody body →
      SeparatedAt (sign "|") OutlinesConstructor body constructors rest →
      (∀ c ∈ rest, Text.isBlank c = true) → Outlines text ⟨name, parameters, constructors⟩

/-- The names of an outline, without places. -/
def Outline.names (o : Outline) : String × List String × List (String × List String) :=
  (o.name, o.parameters.map (·.2),
    o.constructors.map fun c => (c.2.name, c.2.fields.map (·.2)))

/-- The repetition that is reported, and its place.  Fields come first, those of an earlier
constructor before those of a later one, then parameters, then constructors. -/
inductive Outline.FirstRepetition (o : Outline) : DeclarationError → List Char → Prop where
  | field {before after : List (List Char × ConstructorOutline)} {start place : List Char}
      {c : ConstructorOutline} {name : String} :
      o.constructors = before ++ (start, c) :: after →
      (∀ b ∈ before, (b.2.fields.map (·.2)).Nodup) → IsFirstRepeated c.fields name place →
      FirstRepetition o (.duplicateField c.name name) place
  | parameter {place : List Char} {name : String} :
      (∀ c ∈ o.constructors, (c.2.fields.map (·.2)).Nodup) →
      IsFirstRepeated o.parameters name place →
      FirstRepetition o (.duplicateParameter o.name name) place
  | constructor {place : List Char} {name : String} :
      (∀ c ∈ o.constructors, (c.2.fields.map (·.2)).Nodup) → (o.parameters.map (·.2)).Nodup →
      IsFirstRepeated (o.constructors.map fun c => (c.1, c.2.name)) name place →
      FirstRepetition o (.duplicateConstructor o.name name) place

/-! ## The rules read the outline of a text -/

/-- The names and places of a constructor as read. -/
def ConstructorDraft.outline (draft : ConstructorDraft) : ConstructorOutline :=
  ⟨draft.name, draft.fieldUses⟩

/-- The names and places of a declaration as read. -/
def DeclarationDraft.outline (draft : DeclarationDraft) : Outline :=
  ⟨draft.name, draft.parameterUses, draft.constructors.map fun c => (c.start, c.item.outline)⟩

section Located

variable {α β : Type} {rule : Rule α} {item : List Char → β → List Char → Prop} {view : α → β}
  {text rest : List Char} {values : List (Located α)}

/-- A located value in the given view. -/
def viewAt (view : α → β) (value : Located α) : List Char × β :=
  (value.start, view value.item)

theorem starAt_of_repeats
    (h : ∀ text value rest, Reads (located rule) text value rest → item text (view value.item) rest)
    (hr : Repeats (located rule) text values rest) :
    StarAt item text (values.map (viewAt view)) rest := by
  induction hr with
  | stop => exact .nil
  | step hr _ ih =>
    rw [List.map_cons, viewAt, (reads_located.mp hr).1]
    exact .cons (h _ _ _ hr) ih

theorem StarAt.exists_repeats {values : List (List Char × β)}
    (h : ∀ text value rest, item text value rest →
      ∃ value', Reads (located rule) text value' rest ∧ view value'.item = value)
    (hs : StarAt item text values rest) (hend : Refuses (located rule) rest) :
    ∃ values', Repeats (located rule) text values' rest ∧ values'.map (viewAt view) = values := by
  induction hs with
  | nil => exact ⟨[], .stop hend, rfl⟩
  | cons hitem _ ih =>
    obtain ⟨value', hr, rfl⟩ := h _ _ _ hitem
    obtain ⟨values', hrs, rfl⟩ := ih hend
    refine ⟨value' :: values', .step hr hrs, ?_⟩
    rw [List.map_cons, viewAt, (reads_located.mp hr).1]

variable {separator : String}

theorem separatedAt_of_reads (hmem : separator ∈ signTexts)
    (hshrinks : Shrinks (do let _ ← symbol separator; located rule))
    (h : ∀ text value rest, Reads (located rule) text value rest → item text (view value.item) rest)
    (hr : Reads (sepBy1 (symbol separator) (located rule)) text values rest) :
    SeparatedAt (sign separator) item text (values.map (viewAt view)) rest := by
  obtain ⟨first, more, mid, rfl, hfirst, hmore⟩ := (reads_sepBy1 hshrinks).mp hr
  clear hr
  -- each round of the repetition begins with the separator of the item in front of it
  induction hmore generalizing first text with
  | stop =>
    rw [List.map_singleton, viewAt, (reads_located.mp hfirst).1]
    exact .last (h _ _ _ hfirst)
  | step hr _ ih =>
    obtain ⟨_, after, hsign, hsecond⟩ := reads_bind.mp hr
    rw [List.map_cons, viewAt, (reads_located.mp hfirst).1]
    exact .more (h _ _ _ hfirst) ((reads_symbol hmem).mp hsign).2 (ih _ hsecond)

theorem SeparatedAt.exists_reads {values : List (List Char × β)} {follow : List Char → Prop}
    (hmem : separator ∈ signTexts)
    (hshrinks : Shrinks (do let _ ← symbol separator; located rule))
    (h : ∀ text value rest, item text value rest → follow rest →
      ∃ value', Reads (located rule) text value' rest ∧ view value'.item = value)
    (hsep : ∀ text mid, (sign separator).Begins text mid → follow text)
    (hs : SeparatedAt (sign separator) item text values rest) (hfollow : follow rest)
    (hend : ∀ mid, ¬ (sign separator).Begins rest mid) :
    ∃ values', Reads (sepBy1 (symbol separator) (located rule)) text values' rest ∧
      values'.map (viewAt view) = values := by
  induction hs with
  | last hitem =>
    obtain ⟨value', hr, rfl⟩ := h _ _ _ hitem hfollow
    refine ⟨[value'], (reads_sepBy1 hshrinks).mpr ⟨value', [], _, rfl, hr, .stop ?_⟩, ?_⟩
    · intro value rest' hr
      obtain ⟨_, mid, hsign, -⟩ := reads_bind.mp hr
      exact hend mid ((reads_symbol hmem).mp hsign).2
    · rw [List.map_singleton, viewAt, (reads_located.mp hr).1]
  | more hitem hsign _ ih =>
    obtain ⟨value', hr, rfl⟩ := h _ _ _ hitem (hsep _ _ hsign)
    obtain ⟨values', hrs, rfl⟩ := ih hfollow hend
    obtain ⟨first, more, mid', rfl, hfirst, hmore⟩ := (reads_sepBy1 hshrinks).mp hrs
    have hround : Reads (do let _ ← symbol separator; located rule) _ first mid' :=
      reads_bind.mpr ⟨separator, _, (reads_symbol hmem).mpr ⟨rfl, hsign⟩, hfirst⟩
    refine ⟨value' :: first :: more, (reads_sepBy1 hshrinks).mpr
      ⟨value', first :: more, _, rfl, hr, .step hround hmore⟩, ?_⟩
    rw [List.map_cons, viewAt, (reads_located.mp hr).1]

end Located

/-! ### Parameters and fields -/

theorem parameterNamed_of_reads {text rest : List Char} {p : Located TypeParameter}
    (h : Reads (located parameter) text p rest) : ParameterNamed text p.item.name rest := by
  obtain ⟨tokens, -, hs, hd⟩ := itemSound_parameter.located h
  exact ⟨tokens, p.item, hs, hd, rfl⟩

theorem ParameterNamed.exists_reads {text rest : List Char} {name : String}
    (h : ParameterNamed text name rest) :
    ∃ p, Reads (located parameter) text p rest ∧ p.item.name = name := by
  obtain ⟨tokens, p, hs, hd, rfl⟩ := h
  obtain ⟨p', hr, rfl⟩ := itemComplete_parameter.located (fun _ _ hd => hd.ne_nil) hd hs trivial
  exact ⟨p', hr, rfl⟩

/-- The name of a member that is a field. -/
def fieldName (m : Member) : String :=
  m.name.getD ""

theorem fieldNamed_of_reads {text rest : List Char} {m : Located Member}
    (h : Reads (located field) text m rest) :
    m.item.name = some (fieldName m.item) ∧ FieldNamed text (fieldName m.item) rest := by
  obtain ⟨tokens, -, hs, hd⟩ := itemSound_field.located h
  obtain ⟨start, item⟩ := m
  cases (show DerivesField tokens item from hd) with
  | field htype => exact ⟨rfl, _, _, hs, .field htype⟩

/-- A field is read where a type could not go on. -/
theorem FieldNamed.exists_reads {text rest : List Char} {name : String}
    (h : FieldNamed text name rest) (hstop : ∀ tokens, Phrase.type.Stops tokens rest) :
    ∃ m, Reads (located field) text m rest ∧ fieldName m.item = name := by
  obtain ⟨tokens, type, hs, hd⟩ := h
  have hne : ∀ tokens value, DerivesField tokens value → tokens ≠ [] := by
    rintro _ _ ⟨_⟩
    simp
  obtain ⟨m, hr, hitem⟩ := itemComplete_field.located hne hd hs hstop
  exact ⟨m, hr, congrArg fieldName hitem⟩

theorem shrinks_comma_field : Shrinks (do let _ ← symbol ","; located field) :=
  itemSound_field.located.shrinks_separated (by decide)

/-! ### Constructors -/

/-- Where all members are fields, each is used under its name. -/
theorem ConstructorDraft.fieldUses_of_named {draft : ConstructorDraft}
    (h : ∀ m ∈ draft.members, m.item.name = some (fieldName m.item)) :
    draft.fieldUses = draft.members.map (viewAt fieldName) := by
  rw [ConstructorDraft.fieldUses, ← List.filterMap_eq_map]
  refine List.filterMap_congr fun m hm => ?_
  rw [h m hm]
  rfl

theorem ConstructorDraft.fieldUses_of_positional {draft : ConstructorDraft}
    (h : ∀ m ∈ draft.members.map (·.item), m.name = none) : draft.fieldUses = [] := by
  refine List.filterMap_eq_nil_iff.mpr fun m hm => ?_
  rw [h m.item (List.mem_map_of_mem hm)]
  rfl

theorem named_of_reads_fields {text rest : List Char} {members : List (Located Member)}
    (h : Reads (sepBy1 (symbol ",") (located field)) text members rest) :
    ∀ m ∈ members, m.item.name = some (fieldName m.item) := by
  intro m hm
  obtain ⟨_, _, -, hr⟩ :=
    Tracks.exists_reads_of_sepBy1 (tracks_symbol ",") tracks_field.located h m hm
  exact (fieldNamed_of_reads hr).1

theorem outlinesConstructor_of_reads {text rest : List Char} {draft : ConstructorDraft}
    (h : Reads constructorDraft text draft rest) : OutlinesConstructor text draft.outline rest := by
  rcases reads_choice_pair.mp h with h | ⟨-, h⟩
  · obtain ⟨name, mid, hname, h⟩ := reads_bind.mp h
    obtain ⟨_, after, hopen, h⟩ := reads_bind.mp h
    obtain ⟨members, last, hmembers, h⟩ := reads_bind.mp h
    obtain ⟨_, rest', hclose, h⟩ := reads_bind.mp h
    obtain ⟨rfl, rfl⟩ := reads_pure.mp h
    rw [ConstructorDraft.outline,
      ConstructorDraft.fieldUses_of_named (named_of_reads_fields hmembers)]
    exact .record (reads_identifier.mp hname) ((reads_symbol (by decide)).mp hopen).2
      (separatedAt_of_reads (by decide) shrinks_comma_field
        (fun _ _ _ hr => (fieldNamed_of_reads hr).2) hmembers)
      ((reads_symbol (by decide)).mp hclose).2
  · obtain ⟨name, mid, hname, h⟩ := reads_bind.mp h
    obtain ⟨members, last, hmembers, h⟩ := reads_bind.mp h
    obtain ⟨rfl, rfl⟩ := reads_pure.mp h
    obtain ⟨tokens, hs, hd⟩ := members_sound hmembers
    rw [ConstructorDraft.outline, ConstructorDraft.fieldUses_of_positional hd.name_eq_none]
    exact .positional (reads_identifier.mp hname) hs hd.weaken

theorem OutlinesConstructor.exists_reads {text rest : List Char} {c : ConstructorOutline}
    (h : OutlinesConstructor text c rest) (hend : EndsConstructor rest) :
    ∃ draft, Reads constructorDraft text draft rest ∧ draft.outline = c := by
  cases h with
  | record hname hopen hfields hclose =>
    obtain ⟨members, hmembers, rfl⟩ := hfields.exists_reads (by decide) shrinks_comma_field
      (fun _ _ _ hitem hstop => hitem.exists_reads hstop)
      (fun _ _ hb _ => stops_type_of_begins hb (by decide) (by decide))
      (fun _ => stops_type_of_begins hclose (by decide) (by decide))
      (fun _ => hclose.not_begins (by decide))
    refine ⟨⟨_, members⟩, reads_constructorDraft_of_record hname hopen hmembers hclose, ?_⟩
    rw [ConstructorDraft.outline, ConstructorDraft.fieldUses_of_named]
    exact named_of_reads_fields hmembers
  | positional hname hs hd =>
    -- the rules read a greedy derivation, which has no names either
    obtain ⟨members, hgreedy⟩ := hd.exists_greedy hs
    obtain ⟨drafts, hmembers, rfl⟩ := members_complete hgreedy hs hend
    refine ⟨⟨_, drafts⟩, reads_constructorDraft_of_members hname ?_ hmembers, ?_⟩
    · exact fun _ => hgreedy.not_begins hs hend (by decide) (by decide)
    · rw [ConstructorDraft.outline, ConstructorDraft.fieldUses_of_positional hgreedy.name_eq_none]

/-- A constructor begins with its name, so blanks in front of it do not count. -/
theorem outlinesConstructor_skipBlanks {text rest : List Char} {c : ConstructorOutline} :
    OutlinesConstructor (Text.skipBlanks text) c rest ↔ OutlinesConstructor text c rest := by
  constructor
  · rintro (⟨hname, hopen, hfields, hclose⟩ | ⟨hname, hs, hd⟩)
    · exact .record (begins_skipBlanks.mp hname) hopen hfields hclose
    · exact .positional (begins_skipBlanks.mp hname) hs hd
  · rintro (⟨hname, hopen, hfields, hclose⟩ | ⟨hname, hs, hd⟩)
    · exact .record (begins_skipBlanks.mpr hname) hopen hfields hclose
    · exact .positional (begins_skipBlanks.mpr hname) hs hd

/-! ### Declarations -/

/-- The rules for a declaration read exactly its outline, among other things. -/
theorem outlines_iff_reads {text : List Char} {o : Outline} :
    Outlines text o ↔
      ∃ draft rest, Reads declarationDraft text draft rest ∧ draft.outline = o := by
  have hshrinks : Shrinks (do let _ ← symbol "|"; located constructorDraft) :=
    itemSound_constructorDraft.located.shrinks_separated (by decide)
  constructor
  · rintro ⟨hdata, hname, hp, hequals, hc, hblank⟩
    obtain ⟨parameters, hparameters, rfl⟩ :=
      hp.exists_repeats (fun _ _ _ hitem => hitem.exists_reads) (refuses_located_parameter hequals)
    have hconstructor : ∀ text c rest, OutlinesConstructor text c rest → EndsConstructor rest →
        ∃ draft, Reads (located constructorDraft) text draft rest ∧ draft.item.outline = c := by
      intro text c rest hitem hend
      obtain ⟨draft, hr, hdraft⟩ := (outlinesConstructor_skipBlanks.mpr hitem).exists_reads hend
      exact ⟨⟨_, draft⟩, reads_located.mpr ⟨rfl, hr⟩, hdraft⟩
    obtain ⟨constructors, hconstructors, rfl⟩ := hc.exists_reads (by decide) hshrinks hconstructor
      (fun _ mid hb => .inl ⟨mid, hb⟩) (.inr hblank) (fun _ => not_begins_of_blank hblank)
    refine ⟨⟨_, parameters, constructors⟩, [], reads_declarationDraft.mpr ?_, rfl⟩
    exact ⟨_, _, _, _, _, hdata, hname, (reads_many itemSound_parameter.located.shrinks).mpr
      hparameters, hequals, hconstructors, hblank, rfl⟩
  · rintro ⟨draft, rest, hr, rfl⟩
    obtain ⟨_, _, _, _, _, hdata, hname, hparameters, hequals, hconstructors, hblank, -⟩ :=
      reads_declarationDraft.mp hr
    refine .declaration hdata hname ?_ hequals ?_ hblank
    · exact starAt_of_repeats (fun _ _ _ hr => parameterNamed_of_reads hr)
        ((reads_many itemSound_parameter.located.shrinks).mp hparameters)
    · refine separatedAt_of_reads (by decide) hshrinks (fun _ _ _ hr => ?_) hconstructors
      exact outlinesConstructor_skipBlanks.mp
        (outlinesConstructor_of_reads (reads_located.mp hr).2)

/-! ## What the checks report -/

theorem ConstructorDraft.map_fieldUses (draft : ConstructorDraft) :
    draft.fieldUses.map (·.2) = fieldNames draft.view.2 := by
  rw [ConstructorDraft.fieldUses, fieldNames, ConstructorDraft.view, List.map_filterMap,
    List.filterMap_map]
  refine List.filterMap_congr fun m _ => ?_
  cases h : m.item.name <;> simp [h]

theorem DeclarationDraft.names_outline (draft : DeclarationDraft) :
    draft.outline.names = draft.reading.names := by
  simp only [Outline.names, Reading.names, DeclarationDraft.outline, DeclarationDraft.reading,
    DeclarationDraft.parameterUses, List.map_map]
  refine congrArg₂ Prod.mk rfl (congrArg₂ Prod.mk rfl (List.map_congr_left fun c _ => ?_))
  exact congrArg _ c.item.map_fieldUses

theorem DeclarationDraft.map_parameterUses (draft : DeclarationDraft) :
    draft.parameterUses.map (·.2) = draft.parameters.map (·.item.name) := by
  rw [DeclarationDraft.parameterUses, List.map_map]
  rfl

theorem DeclarationDraft.map_constructorUses (draft : DeclarationDraft) :
    draft.constructorUses.map (·.2) = draft.constructors.map (·.item.name) := by
  rw [DeclarationDraft.constructorUses, List.map_map]
  rfl

theorem ConstructorDraft.nodup_fieldUses {draft : ConstructorDraft} {start : List Char}
    {c : Constructor} (h : draft.check start = .ok c) : (draft.fieldUses.map (·.2)).Nodup := by
  have hmembers := congrArg Prod.snd (ConstructorDraft.check_eq_ok_iff.mp h)
  rw [draft.map_fieldUses, ← hmembers]
  exact c.nodup_fields

/-- A check that fails reports the first repetition of the outline. -/
theorem DeclarationDraft.exists_firstRepetition {text rest start : List Char}
    {draft : DeclarationDraft} {failure : Failure} (hr : Reads declarationDraft text draft rest)
    (h : draft.check start = .error failure) :
    ∃ error, failure.reason = some error ∧
      draft.outline.FirstRepetition error failure.remaining := by
  obtain ⟨hne, huniform⟩ := DeclarationDraft.uniform_of_reads hr
  -- once all constructors pass their checks, all fields differ
  have hfields : (∀ c ∈ draft.constructors, ∃ checked, c.item.check c.start = .ok checked) →
      ∀ c ∈ draft.outline.constructors, (c.2.fields.map (·.2)).Nodup := by
    refine fun hchecked => List.forall_mem_map.mpr fun c hc => ?_
    obtain ⟨checked, hcheck⟩ := hchecked c hc
    exact ConstructorDraft.nodup_fieldUses hcheck
  cases DeclarationDraft.fails_of_check h with
  | @constructor before after c _ hsplit hbefore hfails =>
    have hc : c ∈ draft.constructors := by simp [hsplit]
    cases hfails with
    | mixed hmixed => exact absurd (huniform c hc) hmixed
    | field hfield =>
      rw [← c.item.map_fieldUses] at hfield
      obtain ⟨place, hplace, hfirst⟩ := secondUse_of_firstRepeated? hfield
      have hconstructors : draft.outline.constructors =
          before.map (fun b => (b.start, b.item.outline)) ++ (c.start, c.item.outline) ::
            after.map (fun a => (a.start, a.item.outline)) := by
        rw [DeclarationDraft.outline, hsplit, List.map_append, List.map_cons]
      refine ⟨_, rfl, ?_⟩
      rw [hplace]
      refine .field hconstructors (List.forall_mem_map.mpr fun b hb => ?_) hfirst
      obtain ⟨checked, hcheck⟩ := hbefore b hb
      exact ConstructorDraft.nodup_fieldUses hcheck
  | empty hnil => exact absurd hnil hne
  | parameter hchecked hname =>
    rw [← draft.map_parameterUses] at hname
    obtain ⟨place, hplace, hfirst⟩ := secondUse_of_firstRepeated? hname
    refine ⟨_, rfl, ?_⟩
    rw [hplace]
    exact .parameter (hfields hchecked) hfirst
  | constructorName hchecked hnone hname =>
    rw [← draft.map_parameterUses, firstRepeated?_eq_none_iff] at hnone
    rw [← draft.map_constructorUses] at hname
    obtain ⟨place, hplace, hfirst⟩ := secondUse_of_firstRepeated? hname
    refine ⟨_, rfl, ?_⟩
    rw [hplace]
    refine .constructor (hfields hchecked) hnone ?_
    rw [DeclarationDraft.outline, List.map_map]
    exact hfirst

/-- Before the checks nothing is wrong but that the text does not follow the grammar. -/
theorem reason_of_declarationDraft_eq_error {text : List Char} {failure : Failure}
    (h : declarationDraft text = .error failure) : failure.reason = none := by
  rcases bind_eq_error_iff.mp h with h | ⟨_, _, -, h⟩
  · exact (failsWith_keyword _).reason_eq h
  rcases bind_eq_error_iff.mp h with h | ⟨_, _, -, h⟩
  · exact failsWith_identifier.reason_eq h
  rcases bind_eq_error_iff.mp h with h | ⟨_, _, -, h⟩
  · cases h
  rcases bind_eq_error_iff.mp h with h | ⟨_, _, -, h⟩
  · exact (failsWith_symbol _).reason_eq h
  rcases bind_eq_error_iff.mp h with h | ⟨_, _, -, h⟩
  · have hname := constructorDraft_eq_error_iff.mp
      (located_eq_error_iff.mp (sepBy1_eq_error_iff.mp h))
    exact failsWith_identifier.reason_eq hname
  rcases bind_eq_error_iff.mp h with h | ⟨_, _, -, h⟩
  · exact failsWith_endOfInput.reason_eq h
  · cases h

/-! ## No check falls back -/

/-- The place of the constructor is not used: a repeated field has a second use. -/
theorem ConstructorDraft.check_congr {draft : ConstructorDraft} (h : Uniform draft.view.2)
    (start start' : List Char) : draft.check start = draft.check start' := by
  refine Except.mapError_congr fun error herror => ?_
  cases ((Constructor.ofMembers_decided _ _).2 error).mp herror with
  | mixed hnamed hpositional => exact absurd h (not_uniform_iff.mpr ⟨hnamed, hpositional⟩)
  | field _ hfield =>
    rw [← firstRepeated?_eq_some_iff] at hfield
    obtain ⟨place, hplace, -⟩ := secondUse_of_firstRepeated? (draft.map_fieldUses.symm ▸ hfield)
    simp only [hplace, Option.getD_some]

/-- The place of the whole is not used either. -/
theorem DeclarationDraft.check_congr {text rest : List Char} {draft : DeclarationDraft}
    (hr : Reads declarationDraft text draft rest) (start start' : List Char) :
    draft.check start = draft.check start' := by
  unfold DeclarationDraft.check
  cases hmap : draft.constructors.mapM fun c => c.item.check c.start with
  | error failure => rfl
  | ok constructors =>
    refine Except.mapError_congr fun error herror => ?_
    cases ((Declaration.ofConstructors_decided _ _ _).2 error).mp herror with
    | empty hempty =>
      -- a text without constructors is not read to its end
      subst hempty
      have hnil := List.map_eq_nil_iff.mp (mapM_check_eq_ok_iff.mp hmap).symm
      exact absurd hnil (DeclarationDraft.uniform_of_reads hr).1
    | parameter _ hname =>
      rw [← firstRepeated?_eq_some_iff, List.map_map] at hname
      obtain ⟨place, hplace, -⟩ :=
        secondUse_of_firstRepeated? (draft.map_parameterUses.symm ▸ hname)
      simp only [hplace, Option.getD_some]
    | constructor _ _ hname =>
      rw [← firstRepeated?_eq_some_iff, map_name_of_mapM hmap, ← draft.map_constructorUses] at hname
      obtain ⟨place, hplace, -⟩ := secondUse_of_firstRepeated? hname
      simp only [hplace, Option.getD_some]

end Grammar

open Grammar Rule in
/-- Where a text follows the grammar and repeats a name, the parser fails with the first repetition
of its outline, and at its place.  No other error comes out of the parser, and the places that the
checks would fall back to are never used. -/
theorem first_repetition_reported (source : String) :
    (∀ r, Describes false source.toList r → (∃ o, Outlines source.toList o) ∧
      ∀ o, Outlines source.toList o → o.names = r.names ∧
        (¬ r.Distinct → ∃ failure error, parse source = .error failure ∧
          failure.reason = some error ∧ o.FirstRepetition error failure.remaining)) ∧
    (∀ failure error, parse source = .error failure → failure.reason = some error →
      error.IsRepetition) ∧
    ∀ draft rest, Reads declarationDraft source.toList draft rest →
      (∀ c ∈ draft.constructors, ∀ start start', c.item.check start = c.item.check start') ∧
      ∀ start start', draft.check start = draft.check start' := by
  refine ⟨fun r hr => ?_, fun failure error hparse hreason => ?_, fun draft rest hr => ⟨?_, ?_⟩⟩
  · -- the rules read the greedy derivation, which is about the same names
    obtain ⟨r', hr', hnames⟩ := hr.exists_greedy_names
    obtain ⟨draft, rest, hdraft, rfl⟩ := describes_iff_reads.mp hr'
    refine ⟨⟨_, outlines_iff_reads.mpr ⟨draft, rest, hdraft, rfl⟩⟩, fun o ho => ?_⟩
    obtain ⟨draft', rest', hdraft', rfl⟩ := outlines_iff_reads.mp ho
    obtain ⟨rfl, rfl⟩ := hdraft.unique hdraft'
    refine ⟨draft.names_outline.trans hnames, fun hrepeated => ?_⟩
    cases hcheck : draft.check (Text.skipBlanks source.toList) with
    | ok d =>
      have hdistinct := DeclarationDraft.check_eq_ok_iff.mp hcheck ▸ d.distinct_reading
      exact absurd (hdistinct.of_names hnames.symm) hrepeated
    | error inner =>
      obtain ⟨error, hreason, hfirst⟩ := DeclarationDraft.exists_firstRepetition hdraft hcheck
      refine ⟨inner.relabel "a data declaration", error, ?_, hreason, hfirst⟩
      exact parse_eq_error_iff.mpr ⟨inner, rfl, .inr ⟨draft, rest, hdraft, hcheck⟩⟩
  · obtain ⟨inner, rfl, herr | ⟨draft, rest, hr, hcheck⟩⟩ := parse_eq_error_iff.mp hparse
    · cases (reason_of_declarationDraft_eq_error herr).symm.trans hreason
    · obtain ⟨error', hreason', hrepetition⟩ := exists_repetition_of_check hr hcheck
      obtain rfl := Option.some.inj (hreason'.symm.trans hreason)
      exact hrepetition
  · exact fun c hc start start' =>
      ConstructorDraft.check_congr ((DeclarationDraft.uniform_of_reads hr).2 c hc) start start'
  · exact DeclarationDraft.check_congr hr

namespace Grammar

/-- A parameter, two fields and a constructor are repeated. -/
def repetitiveText : String :=
  "data X A A = B{a::T,b::T,b::T,a::T} | B"

/-- What the rules read in it. -/
def repetitiveDraft : DeclarationDraft where
  name := "X"
  parameters := [
    ⟨"A A = B{a::T,b::T,b::T,a::T} | B".toList, ⟨"A", none⟩⟩,
    ⟨"A = B{a::T,b::T,b::T,a::T} | B".toList, ⟨"A", none⟩⟩]
  constructors := [
    ⟨"B{a::T,b::T,b::T,a::T} | B".toList, "B", [
      ⟨"a::T,b::T,b::T,a::T".toList ++ '}' :: " | B".toList, .named "a" (.var "T")⟩,
      ⟨"b::T,b::T,a::T".toList ++ '}' :: " | B".toList, .named "b" (.var "T")⟩,
      ⟨"b::T,a::T".toList ++ '}' :: " | B".toList, .named "b" (.var "T")⟩,
      ⟨"a::T".toList ++ '}' :: " | B".toList, .named "a" (.var "T")⟩]⟩,
    ⟨"B".toList, "B", []⟩]

end Grammar

open Grammar in
/-- The report is about the field that is repeated first, neither the one that is used first nor the
parameter in front of both. -/
theorem repeated_field_reported :
    ∃ r o, Describes false repetitiveText.toList r ∧ ¬ r.Distinct ∧
      Outlines repetitiveText.toList o ∧
      ∃ failure, parse repetitiveText = .error failure ∧
        failure.remaining = "b::T,a::T".toList ++ '}' :: " | B".toList ∧
        o.FirstRepetition (.duplicateField "B" "b") failure.remaining := by
  have hr : Rule.Reads declarationDraft repetitiveText.toList repetitiveDraft [] := by
    unfold Rule.Reads
    cbv
  have hcheck : repetitiveDraft.check (Text.skipBlanks repetitiveText.toList) =
      .error (.invalid (.duplicateField "B" "b")
        ("b::T,a::T".toList ++ '}' :: " | B".toList)) := rfl
  have hdescribes := describes_iff_reads.mpr ⟨repetitiveDraft, [], hr, rfl⟩
  have hrepeated : ¬ repetitiveDraft.reading.Distinct := fun h => absurd h.1 (by decide)
  obtain ⟨⟨o, ho⟩, hreport⟩ :=
    (first_repetition_reported repetitiveText).1 repetitiveDraft.reading hdescribes.weaken
  obtain ⟨failure, error, hparse, hreason, hfirst⟩ := (hreport o ho).2 hrepeated
  have hparse' := parse_eq_error_iff.mpr ⟨_, rfl, .inr ⟨repetitiveDraft, [], hr, hcheck⟩⟩
  obtain rfl := Except.error.inj (hparse'.symm.trans hparse)
  obtain rfl := Option.some.inj hreason
  exact ⟨repetitiveDraft.reading, o, hdescribes.weaken, hrepeated, ho, _, hparse, rfl, hfirst⟩

end AlgebraicData
