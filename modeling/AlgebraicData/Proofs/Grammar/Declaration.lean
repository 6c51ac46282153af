import AlgebraicData.Grammar.Declaration
import AlgebraicData.Proofs.Declaration.Invariant
import AlgebraicData.Proofs.Grammar.TypeExpr

/-!
# The language of declarations

The grammar of declarations over tokens, above the grammar of types.  It is ambiguous in one place:
in `C B -> T D` the codomain may or may not take `D`.  Each derivation relation therefore has a
parameter `greedy`, and a greedy derivation is one in which the codomain of a positional member
takes every atom that follows and that it can take (`TakesAtoms`).

* `describes_iff_reads` — the rules read exactly what a greedy derivation describes;
* `Describes.exists_greedy` — every derivation can be regrouped into a greedy one, which says the
  same about names;
* the parser accepts a text exactly if the text can be derived with distinct names, and returns the
  declaration of the greedy derivation.
-/

namespace AlgebraicData

namespace Grammar

open Rule Token

/-! ## The grammar -/

/-- `item*` -/
inductive Star {α : Type} (item : List Token → α → Prop) : List Token → List α → Prop where
  | nil : Star item [] []
  | cons {tokens tokens' : List Token} {value : α} {values : List α} :
      item tokens value → Star item tokens' values →
      Star item (tokens ++ tokens') (value :: values)

/-- `item (separator item)*` -/
inductive Separated {α : Type} (separator : Token) (item : List Token → α → Prop) :
    List Token → List α → Prop where
  | last {tokens : List Token} {value : α} :
      item tokens value → Separated separator item tokens [value]
  | more {tokens tokens' : List Token} {value : α} {values : List α} :
      item tokens value → Separated separator item tokens' values →
      Separated separator item (tokens ++ separator :: tokens') (value :: values)

/-- `parameter := identifier | "(" identifier "::" type ")"` -/
inductive DerivesParameter : List Token → TypeParameter → Prop where
  | plain {name : String} : DerivesParameter [word name] ⟨name, none⟩
  | bounded {name : String} {tokens : List Token} {bound : TypeExpr} :
      Derives .type tokens bound →
      DerivesParameter (sign "(" :: word name :: sign "::" :: tokens ++ [sign ")"])
        ⟨name, some bound⟩

/-- `field := identifier "::" type` -/
inductive DerivesField : List Token → Member → Prop where
  | field {name : String} {tokens : List Token} {type : TypeExpr} :
      Derives .type tokens type →
      DerivesField (word name :: sign "::" :: tokens) (.named name type)

/-- No atom at the front of the tokens that follow could be taken by the type. -/
def TakesAtoms (type following : List Token) : Prop :=
  ∀ ⦃atom after value⦄, Derives .atom atom value → following = atom ++ after →
    ∀ longer, ¬ Derives .type (type ++ atom) longer

/-- `member*`, where `member := atom "->" type | atom` -/
inductive DerivesMembers (greedy : Bool) : List Token → List Member → Prop where
  | nil : DerivesMembers greedy [] []
  | atom {tokens tokens' : List Token} {type : TypeExpr} {members : List Member} :
      Derives .atom tokens type → DerivesMembers greedy tokens' members →
      DerivesMembers greedy (tokens ++ tokens') (.positional type :: members)
  | arrow {tokens codomainTokens tokens' : List Token} {domain codomain : TypeExpr}
      {members : List Member} :
      Derives .atom tokens domain → Derives .type codomainTokens codomain →
      DerivesMembers greedy tokens' members →
      (greedy = true → TakesAtoms codomainTokens tokens') →
      DerivesMembers greedy (tokens ++ sign "->" :: (codomainTokens ++ tokens'))
        (.positional (.arrow domain codomain) :: members)

/-- `constructor := identifier ("{" field ("," field)* "}" | member*)` -/
inductive DerivesConstructor (greedy : Bool) : List Token → String × List Member → Prop where
  | record {name : String} {tokens : List Token} {members : List Member} :
      Separated (sign ",") DerivesField tokens members →
      DerivesConstructor greedy (word name :: sign openBrace :: tokens ++ [sign closeBrace])
        (name, members)
  | positional {name : String} {tokens : List Token} {members : List Member} :
      DerivesMembers greedy tokens members →
      DerivesConstructor greedy (word name :: tokens) (name, members)

/-- What a text declares, whether or not names are repeated. -/
structure Reading where
  name : String
  parameters : List TypeParameter
  constructors : List (String × List Member)

/-- `declaration := "data" identifier parameter* "=" constructor ("|" constructor)*` -/
inductive DerivesDeclaration (greedy : Bool) : List Token → Reading → Prop where
  | declaration {name : String} {tokens tokens' : List Token} {parameters : List TypeParameter}
      {constructors : List (String × List Member)} :
      Star DerivesParameter tokens parameters →
      Separated (sign "|") (DerivesConstructor greedy) tokens' constructors →
      DerivesDeclaration greedy (word "data" :: word name :: tokens ++ sign "=" :: tokens')
        ⟨name, parameters, constructors⟩

/-- The text can be derived as a declaration, with nothing but blanks after its last token. -/
def Describes (greedy : Bool) (text : List Char) (reading : Reading) : Prop :=
  ∃ tokens rest, Spells tokens text rest ∧ (∀ c ∈ rest, Text.isBlank c = true) ∧
    DerivesDeclaration greedy tokens reading

/-- Parameters have different names, so have constructors, and so have the fields of each. -/
def Reading.Distinct (reading : Reading) : Prop :=
  (reading.parameters.map (·.name)).Nodup ∧ (reading.constructors.map (·.1)).Nodup ∧
    ∀ c ∈ reading.constructors, (fieldNames c.2).Nodup

end Grammar

/-- What a declaration declares, without the proof that names differ. -/
def Declaration.reading (d : Declaration) : Grammar.Reading :=
  ⟨d.name, d.parameters, d.constructors.map fun c => (c.name, c.members)⟩

theorem Declaration.distinct_reading (d : Declaration) : d.reading.Distinct := by
  refine ⟨d.nodup_parameters, ?_, ?_⟩
  · rw [Declaration.reading, List.map_map]
    exact d.nodup_constructors
  · intro c hmem
    obtain ⟨c', -, rfl⟩ := List.mem_map.mp hmem
    exact c'.nodup_fields

/-- Parts that carry no proof make a declaration if they are not empty, not mixed and distinct. -/
theorem exists_declaration_of_distinct {r : Grammar.Reading} (hne : r.constructors ≠ [])
    (huniform : ∀ c ∈ r.constructors, Uniform c.2) (hdistinct : r.Distinct) :
    ∃ d : Declaration, d.reading = r := by
  obtain ⟨hparameters, hnames, hfields⟩ := hdistinct
  let build (c : {c // c ∈ r.constructors}) : Constructor :=
    ⟨c.1.1, c.1.2, huniform c.1 c.2, hfields c.1 c.2⟩
  have hbuild : (r.constructors.attach.map build).map (fun c => (c.name, c.members)) =
      r.constructors := by
    rw [List.map_map]
    exact List.attach_map_subtype_val r.constructors
  have hnames' : ((r.constructors.attach.map build).map (·.name)).Nodup := by
    have := congrArg (List.map Prod.fst) hbuild
    rw [List.map_map] at this
    exact this ▸ hnames
  refine ⟨⟨r.name, r.parameters, r.constructors.attach.map build, ?_, hparameters, hnames'⟩, ?_⟩
  · simpa using hne
  · rw [Declaration.reading, hbuild]

namespace Grammar

open Rule Token

/-! ## Parameters -/

theorem DerivesParameter.ne_nil {tokens : List Token} {p : TypeParameter}
    (h : DerivesParameter tokens p) : tokens ≠ [] := by
  cases h <;> simp

/-- A parameter is delimited by itself: it is read whatever follows. -/
theorem reads_parameter {text rest : List Char} {p : TypeParameter} :
    Reads parameter text p rest ↔
      ∃ tokens, Spells tokens text rest ∧ DerivesParameter tokens p := by
  constructor
  · intro h
    rcases reads_choice_pair.mp (reads_expected.mp h) with h | ⟨-, h⟩
    · obtain ⟨name, mid, hname, hr⟩ := reads_bind.mp h
      obtain ⟨rfl, rfl⟩ := reads_pure.mp hr
      exact ⟨_, spells_singleton.mpr (reads_identifier.mp hname), .plain⟩
    · obtain ⟨_, mid, hopen, hr⟩ := reads_bind.mp h
      obtain ⟨name, mid', hname, hr⟩ := reads_bind.mp hr
      obtain ⟨_, mid'', hcolons, hr⟩ := reads_bind.mp hr
      obtain ⟨bound, after, hbound, hr⟩ := reads_bind.mp hr
      obtain ⟨_, rest', hclose, hr⟩ := reads_bind.mp hr
      obtain ⟨rfl, rfl⟩ := reads_pure.mp hr
      obtain ⟨tokens, hs, hd⟩ := sound .type hbound
      refine ⟨_, ?_, .bounded hd⟩
      refine ⟨mid, ((reads_symbol (by decide)).mp hopen).2, mid', reads_identifier.mp hname, mid'',
        ((reads_symbol (by decide)).mp hcolons).2, spells_append.mpr ⟨after, hs, ?_⟩⟩
      exact spells_singleton.mpr ((reads_symbol (by decide)).mp hclose).2
  · rintro ⟨tokens, hs, hd⟩
    refine reads_expected.mpr (reads_choice_pair.mpr ?_)
    cases hd with
    | plain =>
      have hname := reads_identifier.mpr (spells_singleton.mp hs)
      exact .inl (reads_bind.mpr ⟨_, rest, hname, reads_pure.mpr ⟨rfl, rfl⟩⟩)
    | bounded hd =>
      obtain ⟨mid, hopen, mid', hname, mid'', hcolons, hs⟩ := hs
      obtain ⟨after, hs, hclose⟩ := spells_append.mp hs
      replace hclose := spells_singleton.mp hclose
      have hbound := complete hd hs (stops_type_of_begins hclose (by decide) (by decide))
      have hno : Refuses plainParameter text := by
        intro value rest' hr
        obtain ⟨name, mid', hname, -⟩ := reads_bind.mp hr
        exact hopen.refuses_identifier name mid' hname
      refine .inr ⟨hno, ?_⟩
      refine reads_bind.mpr ⟨_, mid, (reads_symbol (by decide)).mpr ⟨rfl, hopen⟩, ?_⟩
      refine reads_bind.mpr ⟨_, mid', reads_identifier.mpr hname, ?_⟩
      refine reads_bind.mpr ⟨_, mid'', (reads_symbol (by decide)).mpr ⟨rfl, hcolons⟩, ?_⟩
      refine reads_bind.mpr ⟨_, after, hbound, ?_⟩
      refine reads_bind.mpr ⟨_, rest, (reads_symbol (by decide)).mpr ⟨rfl, hclose⟩, ?_⟩
      exact reads_pure.mpr ⟨rfl, rfl⟩

/-! ## Items with their places

A rule for an item skips the blanks in front by itself, so remembering the place changes nothing
about what is read.
-/

section Located

variable {α β : Type} {rule : Rule α} {item : List Token → β → Prop} {view : α → β}

/-- What the rule reads is spelled by tokens that derive the item, in the given view. -/
def ItemSound (rule : Rule α) (item : List Token → β → Prop) (view : α → β) : Prop :=
  ∀ ⦃text value rest⦄, Reads rule text value rest →
    ∃ tokens, tokens ≠ [] ∧ Spells tokens text rest ∧ item tokens (view value)

/-- Tokens that derive the item are read as that item, in the given view, where `follow` holds of
the text that follows them. -/
def ItemComplete (rule : Rule α) (item : List Token → β → Prop) (view : α → β)
    (follow : List Char → Prop) : Prop :=
  ∀ ⦃tokens value text rest⦄, item tokens value → Spells tokens text rest → follow rest →
    ∃ value', Reads rule text value' rest ∧ view value' = value

theorem ItemSound.shrinks (h : ItemSound rule item view) : Shrinks rule := by
  intro text value rest hr
  obtain ⟨tokens, hne, hs, -⟩ := h hr
  obtain ⟨token, more, rfl⟩ := List.exists_cons_of_ne_nil hne
  obtain ⟨mid, hb, hm⟩ := hs
  exact lt_of_le_of_lt hm.length_le hb.length_lt

theorem ItemSound.located (h : ItemSound rule item view) :
    ItemSound (located rule) item (fun value => view value.item) := by
  intro text value rest hr
  obtain ⟨-, hr⟩ := reads_located.mp hr
  obtain ⟨tokens, hne, hs, hd⟩ := h hr
  exact ⟨tokens, hne, (spells_skipBlanks hne).mp hs, hd⟩

theorem ItemComplete.located {follow : List Char → Prop}
    (hne : ∀ tokens value, item tokens value → tokens ≠ [])
    (h : ItemComplete rule item view follow) :
    ItemComplete (located rule) item (fun value => view value.item) follow := by
  intro tokens value text rest hd hs hf
  obtain ⟨value', hr, hview⟩ := h hd ((spells_skipBlanks (hne _ _ hd)).mpr hs) hf
  exact ⟨⟨_, value'⟩, reads_located.mpr ⟨rfl, hr⟩, hview⟩

theorem ItemSound.shrinks_separated (h : ItemSound rule item view) {text : String}
    (hmem : text ∈ signTexts) : Shrinks (do let _ ← symbol text; rule) :=
  (shrinks_symbol hmem).bind fun _ _ _ _ hr => le_of_lt (h.shrinks hr)

theorem ItemSound.separated (h : ItemSound rule item view) {text : String}
    (hmem : text ∈ signTexts) {cs rest : List Char} {values : List α}
    (hr : Reads (sepBy1 (symbol text) rule) cs values rest) :
    ∃ tokens, Spells tokens cs rest ∧ Separated (sign text) item tokens (values.map view) := by
  obtain ⟨first, more, mid, rfl, hfirst, hmore⟩ :=
    (reads_sepBy1 (h.shrinks_separated hmem)).mp hr
  clear hr
  induction hmore generalizing first cs with
  | stop =>
    obtain ⟨tokens, -, hs, hd⟩ := h hfirst
    exact ⟨tokens, hs, .last hd⟩
  | @step mid mid' rest second more hr hmore ih =>
    obtain ⟨_, after, hsign, hsecond⟩ := reads_bind.mp hr
    obtain ⟨tokens, -, hs, hd⟩ := h hfirst
    obtain ⟨tokens', hs', hd'⟩ := ih second hsecond
    refine ⟨tokens ++ sign text :: tokens', spells_append.mpr ⟨mid, hs, ?_⟩, .more hd hd'⟩
    exact ⟨after, ((reads_symbol hmem).mp hsign).2, hs'⟩

theorem ItemComplete.separated {follow : List Char → Prop} (h : ItemComplete rule item view follow)
    (hsound : ItemSound rule item view) {text : String} (hmem : text ∈ signTexts)
    (hsep : ∀ cs mid, (sign text).Begins cs mid → follow cs) {tokens : List Token}
    {values : List β} (hd : Separated (sign text) item tokens values) {cs rest : List Char}
    (hs : Spells tokens cs rest) (hf : follow rest) (hend : ∀ mid, ¬ (sign text).Begins rest mid) :
    ∃ values', Reads (sepBy1 (symbol text) rule) cs values' rest ∧ values'.map view = values := by
  have hshrinks := hsound.shrinks_separated hmem
  induction hd generalizing cs with
  | last hd =>
    obtain ⟨value', hr, rfl⟩ := h hd hs hf
    refine ⟨[value'], (reads_sepBy1 hshrinks).mpr ⟨value', [], rest, rfl, hr, .stop ?_⟩, rfl⟩
    intro value rest' hr
    obtain ⟨_, mid, hsign, -⟩ := reads_bind.mp hr
    exact hend mid ((reads_symbol hmem).mp hsign).2
  | more hd _ ih =>
    obtain ⟨mid, hs, after, hsign, hs'⟩ := spells_append.mp hs
    obtain ⟨value', hr, rfl⟩ := h hd hs (hsep _ _ hsign)
    obtain ⟨values', hr', rfl⟩ := ih hs'
    obtain ⟨first, more, mid', rfl, hfirst, hmore⟩ := (reads_sepBy1 hshrinks).mp hr'
    refine ⟨value' :: first :: more, (reads_sepBy1 hshrinks).mpr
      ⟨value', first :: more, mid, rfl, hr, .step (reads_bind.mpr ⟨text, after, ?_, hfirst⟩)
        hmore⟩, rfl⟩
    exact (reads_symbol hmem).mpr ⟨rfl, hsign⟩

theorem ItemSound.star (h : ItemSound rule item view) {text rest : List Char} {values : List α}
    (hr : Reads (many rule) text values rest) :
    ∃ tokens, Spells tokens text rest ∧ Star item tokens (values.map view) := by
  replace hr := (reads_many h.shrinks).mp hr
  induction hr with
  | stop => exact ⟨[], rfl, .nil⟩
  | step hr _ ih =>
    obtain ⟨tokens, -, hs, hd⟩ := h hr
    obtain ⟨tokens', hs', hd'⟩ := ih
    exact ⟨tokens ++ tokens', spells_append.mpr ⟨_, hs, hs'⟩, .cons hd hd'⟩

theorem ItemComplete.star (h : ItemComplete rule item view fun _ => True)
    (hsound : ItemSound rule item view) {tokens : List Token} {values : List β}
    (hd : Star item tokens values) {text rest : List Char} (hs : Spells tokens text rest)
    (hend : Refuses rule rest) :
    ∃ values', Reads (many rule) text values' rest ∧ values'.map view = values := by
  simp only [reads_many hsound.shrinks]
  induction hd generalizing text with
  | nil =>
    obtain rfl := spells_nil.mp hs
    exact ⟨[], .stop hend, rfl⟩
  | cons hd _ ih =>
    obtain ⟨mid, hs, hs'⟩ := spells_append.mp hs
    obtain ⟨value', hr, rfl⟩ := h hd hs trivial
    obtain ⟨values', hr', rfl⟩ := ih hs'
    exact ⟨value' :: values', .step hr hr', rfl⟩

end Located

/-! ## Fields -/

theorem itemSound_field : ItemSound field DerivesField id := by
  intro text value rest hr
  obtain ⟨name, mid, hname, hr⟩ := reads_bind.mp hr
  obtain ⟨_, mid', hcolons, hr⟩ := reads_bind.mp hr
  obtain ⟨type, mid'', htype, hr⟩ := reads_bind.mp hr
  obtain ⟨rfl, rfl⟩ := reads_pure.mp hr
  obtain ⟨tokens, hs, hd⟩ := sound .type htype
  refine ⟨word name :: sign "::" :: tokens, by simp, ?_, .field hd⟩
  exact ⟨mid, reads_identifier.mp hname, mid', ((reads_symbol (by decide)).mp hcolons).2, hs⟩

theorem itemComplete_field :
    ItemComplete field DerivesField id fun rest => ∀ tokens, Phrase.type.Stops tokens rest := by
  rintro tokens value text rest ⟨hd⟩ ⟨mid, hname, mid', hcolons, hs⟩ hstop
  refine ⟨_, ?_, rfl⟩
  refine reads_bind.mpr ⟨_, mid, reads_identifier.mpr hname, ?_⟩
  refine reads_bind.mpr ⟨_, mid', (reads_symbol (by decide)).mpr ⟨rfl, hcolons⟩, ?_⟩
  exact reads_bind.mpr ⟨_, rest, complete hd hs (hstop _), reads_pure.mpr ⟨rfl, rfl⟩⟩

/-! ## Positional members -/

theorem reads_member {text rest : List Char} {m : Member} :
    Reads member text m rest ↔ ∃ domain mid type, Reads atom text domain mid ∧
      Reads (arrowTail domain) mid type rest ∧ m = .positional type := by
  constructor
  · intro h
    obtain ⟨domain, mid, hdomain, hr⟩ := reads_bind.mp h
    obtain ⟨type, mid', htype, hr⟩ := reads_bind.mp hr
    obtain ⟨rfl, rfl⟩ := reads_pure.mp hr
    exact ⟨domain, mid, type, hdomain, htype, rfl⟩
  · rintro ⟨domain, mid, type, hdomain, htype, rfl⟩
    refine reads_bind.mpr ⟨domain, mid, hdomain, ?_⟩
    exact reads_bind.mpr ⟨type, rest, htype, reads_pure.mpr ⟨rfl, rfl⟩⟩

theorem shrinks_located_member : Shrinks (located member) := by
  intro text value rest hr
  obtain ⟨-, hr⟩ := reads_located.mp hr
  obtain ⟨domain, mid, type, hdomain, htail, -⟩ := reads_member.mp hr
  have hskip : (Text.skipBlanks text).length ≤ text.length := List.length_dropWhile_le _ _
  have := shrinks_atom hdomain
  have := arrowTail_rest_le htail
  omega

/-- Nothing that could go on with the members of a constructor stands in front: the next constructor
or the end of the text does. -/
def EndsConstructor (rest : List Char) : Prop :=
  (∃ mid, (sign "|").Begins rest mid) ∨ ∀ c ∈ rest, Text.isBlank c = true

theorem EndsConstructor.noAtom {rest : List Char} (h : EndsConstructor rest) : NoAtom rest := by
  rcases h with ⟨mid, hb⟩ | hblank
  · exact noAtom_of_begins hb (by decide)
  · exact noAtom_of_blank hblank

theorem EndsConstructor.not_begins {rest : List Char} (h : EndsConstructor rest) {text : String}
    (hne : text ≠ "|") {mid : List Char} : ¬ (sign text).Begins rest mid := by
  rcases h with ⟨mid', hb⟩ | hblank
  · exact fun hb' => hne (Token.sign.inj (hb'.unique hb).1)
  · exact not_begins_of_blank hblank

theorem members_sound {text rest : List Char} {members : List (Located Member)}
    (h : Reads (many (located member)) text members rest) :
    ∃ tokens, Spells tokens text rest ∧ DerivesMembers true tokens (members.map (·.item)) := by
  replace h := (reads_many shrinks_located_member).mp h
  induction h with
  | stop => exact ⟨[], rfl, .nil⟩
  | @step text mid rest value values hr _ ih =>
    obtain ⟨tokens', hs', hd'⟩ := ih
    obtain ⟨-, hr⟩ := reads_located.mp hr
    obtain ⟨domain, after, type, hdomain, htail, hvalue⟩ := reads_member.mp hr
    obtain ⟨tokens, hs, hd⟩ := sound .atom hdomain
    have hne : tokens ≠ [] := hd.ne_nil nofun nofun
    replace hs := (spells_skipBlanks hne).mp hs
    rw [List.map_cons, hvalue]
    rcases reads_arrowTailOver.mp htail with ⟨after', codomain, harrow, hc, rfl⟩ | ⟨-, rfl, rfl⟩
    · obtain ⟨codomainTokens, hsc, hdc⟩ := sound .type hc
      have hspells : Spells (tokens ++ sign "->" :: (codomainTokens ++ tokens')) text rest :=
        spells_append.mpr ⟨after, hs, after', harrow, spells_append.mpr ⟨mid, hsc, hs'⟩⟩
      refine ⟨_, hspells, .arrow hd hdc hd' fun _ => ?_⟩
      -- a longer codomain would have been read
      rintro atom following atomValue ha rfl longer hlonger
      obtain ⟨mid', hsa, -⟩ := spells_append.mp hs'
      have hle := hlonger.rest_le rfl (spells_append.mpr ⟨mid, hsc, hsa⟩) hc
      obtain ⟨token, more, rfl, -⟩ := ha.exists_head nofun nofun
      obtain ⟨mid'', hb, hm⟩ := spells_cons.mp hsa
      have := hb.length_lt
      have := hm.length_le
      omega
    · exact ⟨_, spells_append.mpr ⟨mid, hs, hs'⟩, .atom hd hd'⟩

/-- Members begin with an atom; where there are none, what follows the constructor stands there. -/
theorem DerivesMembers.head {greedy : Bool} {tokens : List Token} {members : List Member}
    (h : DerivesMembers greedy tokens members) {text rest : List Char}
    (hs : Spells tokens text rest) :
    (∃ atom after value mid, Derives .atom atom value ∧ tokens = atom ++ after ∧
      Spells atom text mid) ∨ text = rest := by
  cases h with
  | nil => exact .inr (spells_nil.mp hs)
  | atom hd =>
    obtain ⟨mid, hs, -⟩ := spells_append.mp hs
    exact .inl ⟨_, _, _, mid, hd, rfl, hs⟩
  | arrow hd =>
    obtain ⟨mid, hs, -⟩ := spells_append.mp hs
    exact .inl ⟨_, _, _, mid, hd, rfl, hs⟩

/-- Where members stand, an arrow or an opening brace does not. -/
theorem DerivesMembers.not_begins {greedy : Bool} {tokens : List Token} {members : List Member}
    (h : DerivesMembers greedy tokens members) {text rest mid : List Char}
    (hs : Spells tokens text rest) (hend : EndsConstructor rest) {text' : String}
    (hbar : text' ≠ "|") (hopen : text' ≠ "(") : ¬ (sign text').Begins text mid := by
  rcases h.head hs with ⟨atom, after, value, mid', hd, -, hs⟩ | rfl
  · exact fun hb => hd.not_spells_of_sign nofun nofun hb hopen hs
  · exact hend.not_begins hbar

/-- A greedy codomain ends where the next member begins. -/
theorem DerivesMembers.stops_type {greedy : Bool} {codomain tokens : List Token}
    {members : List Member} (h : DerivesMembers greedy tokens members)
    (hgreedy : TakesAtoms codomain tokens) {text rest : List Char} (hs : Spells tokens text rest)
    (hend : EndsConstructor rest) : Phrase.type.Stops codomain text := by
  refine ⟨fun mid => h.not_begins hs hend (by decide) (by decide), ?_⟩
  intro more value mid hd hsm type
  rcases h.head hs with ⟨atom, after, value', mid', hd', htokens, hsa⟩ | rfl
  · obtain ⟨rfl, -⟩ := hd.atom_unique hd' hsm hsa
    exact hgreedy hd htokens type
  · exact absurd hsm (hend.noAtom hd)

/-- A positional member is read from its own first character on. -/
theorem reads_located_member {text mid rest : List Char} {tokens : List Token}
    {domain type : TypeExpr} (hd : Derives .atom tokens domain) (hs : Spells tokens text mid)
    (htail : Reads (arrowTail domain) mid type rest) :
    Reads (located member) text ⟨Text.skipBlanks text, .positional type⟩ rest := by
  have hne : tokens ≠ [] := hd.ne_nil nofun nofun
  refine reads_located.mpr ⟨rfl, reads_member.mpr ⟨domain, mid, type, ?_, htail, rfl⟩⟩
  exact complete hd ((spells_skipBlanks hne).mpr hs) trivial

theorem refuses_located_member {text : List Char} (hend : EndsConstructor text) :
    Refuses (located member) text := by
  intro value rest hr
  obtain ⟨-, hr⟩ := reads_located.mp hr
  obtain ⟨domain, mid, type, hdomain, -⟩ := reads_member.mp hr
  obtain ⟨atom, hs, hd⟩ := sound .atom hdomain
  exact hend.noAtom hd ((spells_skipBlanks (hd.ne_nil nofun nofun)).mp hs)

theorem members_complete {tokens : List Token} {members : List Member}
    (h : DerivesMembers true tokens members) {text rest : List Char} (hs : Spells tokens text rest)
    (hend : EndsConstructor rest) :
    ∃ members', Reads (many (located member)) text members' rest ∧
      members'.map (·.item) = members := by
  simp only [reads_many shrinks_located_member]
  induction h generalizing text with
  | nil =>
    obtain rfl := spells_nil.mp hs
    exact ⟨[], .stop (refuses_located_member hend), rfl⟩
  | atom hd hd' ih =>
    obtain ⟨mid, hs, hs'⟩ := spells_append.mp hs
    obtain ⟨members', hr, rfl⟩ := ih hs'
    have hno : ∀ mid', ¬ (sign "->").Begins mid mid' :=
      fun _ => hd'.not_begins hs' hend (by decide) (by decide)
    refine ⟨_, .step (reads_located_member hd hs ?_) hr, rfl⟩
    exact reads_arrowTailOver.mpr (.inr ⟨hno, rfl, rfl⟩)
  | arrow hd hdc hd' hgreedy ih =>
    obtain ⟨mid, hs, mid', harrow, hs'⟩ := spells_append.mp hs
    obtain ⟨after, hsc, hs'⟩ := spells_append.mp hs'
    obtain ⟨members', hr, rfl⟩ := ih hs'
    -- a greedy codomain leaves no atom that it could take, so it is read to its end
    have hcodomain := complete hdc hsc (hd'.stops_type (hgreedy rfl) hs' hend)
    refine ⟨_, .step (reads_located_member hd hs ?_) hr, rfl⟩
    exact reads_arrowTailOver.mpr (.inl ⟨mid', _, harrow, hcodomain, rfl⟩)

/-! ## Every derivation can be made greedy -/

/-- An arrow and a type after a type make a longer type, since arrows group to the right. -/
theorem Derives.append_arrow {phrase : Phrase} {tokens : List Token} {value : phrase.Value}
    (h : Derives phrase tokens value) (hphrase : phrase = .type) {tokens' : List Token}
    {codomain : TypeExpr} (hc : Derives .type tokens' codomain) :
    ∃ longer, Derives .type (tokens ++ sign "->" :: tokens') longer := by
  induction h with
  | applicationArrow hd _ _ ih =>
    obtain ⟨longer, hl⟩ := ih rfl
    rw [List.append_assoc, List.cons_append]
    exact ⟨_, .applicationArrow hd hl⟩
  | atomArrow hd _ _ ih =>
    obtain ⟨longer, hl⟩ := ih rfl
    rw [List.append_assoc, List.cons_append]
    exact ⟨_, .atomArrow hd hl⟩
  | ofApplication hd => exact ⟨_, .applicationArrow hd hc⟩
  | ofAtom hd => exact ⟨_, .atomArrow hd hc⟩
  | _ => simp at hphrase

/-- A codomain can be made to take every atom it can: as long as it leaves one, the whole member
that begins with the atom becomes part of it. -/
theorem exists_takesAtoms {type tokens : List Token} {value : TypeExpr} {members : List Member}
    (ht : Derives .type type value) (hm : DerivesMembers true tokens members)
    {text rest : List Char} (hs : Spells tokens text rest) :
    ∃ type' tokens' value' members', type ++ tokens = type' ++ tokens' ∧
      Derives .type type' value' ∧ DerivesMembers true tokens' members' ∧
      TakesAtoms type' tokens' := by
  -- each round moves one member into the codomain
  induction hn : tokens.length using Nat.strongRecOn generalizing type tokens value members text
    with
  | ind n ih =>
    by_cases hgreedy : TakesAtoms type tokens
    · exact ⟨type, tokens, value, members, rfl, ht, hm, hgreedy⟩
    · simp only [TakesAtoms, not_forall, not_not] at hgreedy
      obtain ⟨atom, after, atomValue, ha, hatom, longer, hlonger⟩ := hgreedy
      have hne : atom ≠ [] := ha.ne_nil nofun nofun
      have hlen : 0 < atom.length := List.length_pos_iff.mpr hne
      obtain ⟨mid, hsa, -⟩ := spells_append.mp (hatom ▸ hs)
      cases hm with
      | nil => exact absurd (List.append_eq_nil_iff.mp hatom.symm).1 hne
      | @atom first tokens' _ _ hd hd' =>
        obtain ⟨mid', hs, hs'⟩ := spells_append.mp hs
        obtain ⟨rfl, -⟩ := ha.atom_unique hd hsa hs
        rw [← List.append_assoc]
        refine ih tokens'.length ?_ hlonger hd' hs' rfl
        rw [← hn, List.length_append]
        omega
      | @arrow first codomain tokens' _ _ _ hd hdc hd' =>
        obtain ⟨mid', hs, mid'', -, hs'⟩ := spells_append.mp hs
        obtain ⟨after', -, hs'⟩ := spells_append.mp hs'
        obtain ⟨rfl, -⟩ := ha.atom_unique hd hsa hs
        obtain ⟨longest, hlongest⟩ := hlonger.append_arrow rfl hdc
        have heq : type ++ (atom ++ sign "->" :: (codomain ++ tokens')) =
            type ++ atom ++ sign "->" :: codomain ++ tokens' := by simp
        rw [heq]
        refine ih tokens'.length ?_ hlongest hd' hs' rfl
        rw [← hn]
        simp only [List.length_append, List.length_cons]
        omega

theorem DerivesMembers.exists_greedy {greedy : Bool} {tokens : List Token} {members : List Member}
    (h : DerivesMembers greedy tokens members) {text rest : List Char}
    (hs : Spells tokens text rest) : ∃ members', DerivesMembers true tokens members' := by
  induction h generalizing text with
  | nil => exact ⟨[], .nil⟩
  | atom hd _ ih =>
    obtain ⟨mid, -, hs'⟩ := spells_append.mp hs
    obtain ⟨members', hd'⟩ := ih hs'
    exact ⟨_, .atom hd hd'⟩
  | arrow hd hdc _ _ ih =>
    obtain ⟨mid, -, mid', -, hs'⟩ := spells_append.mp hs
    obtain ⟨after, -, hs'⟩ := spells_append.mp hs'
    obtain ⟨members', hd'⟩ := ih hs'
    obtain ⟨codomain, tokens', value, members'', heq, hdc', hd'', hgreedy⟩ :=
      exists_takesAtoms hdc hd' hs'
    rw [heq]
    exact ⟨_, .arrow hd hdc' hd'' fun _ => hgreedy⟩

/-- Positional members have no names. -/
theorem DerivesMembers.name_eq_none {greedy : Bool} {tokens : List Token} {members : List Member}
    (h : DerivesMembers greedy tokens members) : ∀ m ∈ members, m.name = none := by
  induction h with
  | nil => simp
  | atom _ _ ih => simpa [Member.positional] using ih
  | arrow _ _ _ _ ih => simpa [Member.positional] using ih

theorem DerivesMembers.fieldNames_eq_nil {greedy : Bool} {tokens : List Token}
    {members : List Member} (h : DerivesMembers greedy tokens members) :
    fieldNames members = [] := by
  rw [fieldNames, List.filterMap_eq_nil_iff]
  exact h.name_eq_none

/-- The names that a constructor uses: its own and those of its fields. -/
def usedNames (c : String × List Member) : String × List String :=
  (c.1, fieldNames c.2)

theorem DerivesConstructor.exists_greedy {greedy : Bool} {tokens : List Token}
    {c : String × List Member} (h : DerivesConstructor greedy tokens c) {text rest : List Char}
    (hs : Spells tokens text rest) :
    ∃ c', DerivesConstructor true tokens c' ∧ usedNames c' = usedNames c := by
  cases h with
  | record hd => exact ⟨_, .record hd, rfl⟩
  | positional hd =>
    obtain ⟨mid, -, hs⟩ := spells_cons.mp hs
    obtain ⟨members', hd'⟩ := hd.exists_greedy hs
    refine ⟨_, .positional hd', ?_⟩
    rw [usedNames, usedNames, hd.fieldNames_eq_nil, hd'.fieldNames_eq_nil]

theorem exists_greedy_constructors {greedy : Bool} {tokens : List Token}
    {constructors : List (String × List Member)}
    (h : Separated (sign "|") (DerivesConstructor greedy) tokens constructors)
    {text rest : List Char} (hs : Spells tokens text rest) :
    ∃ constructors', Separated (sign "|") (DerivesConstructor true) tokens constructors' ∧
      constructors'.map usedNames = constructors.map usedNames := by
  induction h generalizing text with
  | last hd =>
    obtain ⟨c', hd', hnames⟩ := hd.exists_greedy hs
    exact ⟨[c'], .last hd', by rw [List.map_singleton, List.map_singleton, hnames]⟩
  | more hd _ ih =>
    obtain ⟨mid, hs, mid', -, hs'⟩ := spells_append.mp hs
    obtain ⟨c', hd', hnames⟩ := hd.exists_greedy hs
    obtain ⟨constructors', hc', hall⟩ := ih hs'
    exact ⟨c' :: constructors', .more hd' hc', by rw [List.map_cons, List.map_cons, hnames, hall]⟩

/-- The names that a derivation is about. -/
def Reading.names (r : Reading) : String × List String × List (String × List String) :=
  (r.name, r.parameters.map (·.name), r.constructors.map usedNames)

/-- Whether names differ depends on the names alone. -/
theorem Reading.Distinct.of_names {r r' : Reading} (h : r.Distinct) (hnames : r'.names = r.names) :
    r'.Distinct := by
  obtain ⟨hp, hc, hf⟩ := h
  obtain ⟨-, hnames⟩ := Prod.mk.inj hnames
  obtain ⟨hparameters, hconstructors⟩ := Prod.mk.inj hnames
  refine ⟨hparameters ▸ hp, ?_, ?_⟩
  · have hfirst := congrArg (List.map Prod.fst) hconstructors
    simp only [List.map_map] at hfirst
    exact hfirst ▸ hc
  · intro c' hmem
    have hmem' : usedNames c' ∈ r.constructors.map usedNames :=
      hconstructors ▸ List.mem_map_of_mem hmem
    obtain ⟨c, hc, heq⟩ := List.mem_map.mp hmem'
    have hfields : fieldNames c.2 = fieldNames c'.2 := congrArg Prod.snd heq
    exact hfields ▸ hf c hc

/-- Every derivation can be regrouped into a greedy one with the same names. -/
theorem Describes.exists_greedy_names {greedy : Bool} {text : List Char} {r : Reading}
    (h : Describes greedy text r) : ∃ r', Describes true text r' ∧ r'.names = r.names := by
  obtain ⟨tokens, rest, hs, hblank, ⟨hp, hc⟩⟩ := h
  obtain ⟨mid, hsp, mid', hequals, hsc⟩ := spells_append.mp hs
  obtain ⟨constructors', hc', hnames⟩ := exists_greedy_constructors hc hsc
  refine ⟨_, ⟨_, rest, hs, hblank, .declaration hp hc'⟩, ?_⟩
  rw [Reading.names, Reading.names, hnames]

/-- Every derivation can be regrouped into a greedy one, in which names differ if they did. -/
theorem Describes.exists_greedy {greedy : Bool} {text : List Char} {r : Reading}
    (h : Describes greedy text r) (hdistinct : r.Distinct) :
    ∃ r', Describes true text r' ∧ r'.Distinct := by
  obtain ⟨r', hr', hnames⟩ := h.exists_greedy_names
  exact ⟨r', hr', hdistinct.of_names hnames⟩

theorem DerivesMembers.weaken {tokens : List Token} {members : List Member}
    (h : DerivesMembers true tokens members) : DerivesMembers false tokens members := by
  induction h with
  | nil => exact .nil
  | atom hd _ ih => exact .atom hd ih
  | arrow hd hdc _ _ ih => exact .arrow hd hdc ih nofun

/-- A greedy derivation is a derivation. -/
theorem Describes.weaken {text : List Char} {r : Reading} (h : Describes true text r) :
    Describes false text r := by
  obtain ⟨tokens, rest, hs, hblank, ⟨hp, hc⟩⟩ := h
  refine ⟨_, rest, hs, hblank, .declaration hp ?_⟩
  clear hs
  have hconstructor : ∀ {tokens c}, DerivesConstructor true tokens c →
      DerivesConstructor false tokens c := by
    rintro tokens c (hd | hd)
    · exact .record hd
    · exact .positional hd.weaken
  induction hc with
  | last hd => exact .last (hconstructor hd)
  | more hd _ ih => exact .more (hconstructor hd) ih

/-! ## Constructors -/

/-- A constructor as read, without the places of its members. -/
def ConstructorDraft.view (draft : ConstructorDraft) : String × List Member :=
  (draft.name, draft.members.map (·.item))

theorem itemSound_constructorDraft :
    ItemSound constructorDraft (DerivesConstructor true) ConstructorDraft.view := by
  intro text draft rest hr
  rcases reads_choice_pair.mp hr with hr | ⟨-, hr⟩
  · obtain ⟨name, mid, hname, hr⟩ := reads_bind.mp hr
    obtain ⟨_, mid', hopen, hr⟩ := reads_bind.mp hr
    obtain ⟨members, mid'', hmembers, hr⟩ := reads_bind.mp hr
    obtain ⟨_, rest', hclose, hr⟩ := reads_bind.mp hr
    obtain ⟨rfl, rfl⟩ := reads_pure.mp hr
    obtain ⟨tokens, hs, hd⟩ := itemSound_field.located.separated (by decide) hmembers
    refine ⟨word name :: sign openBrace :: tokens ++ [sign closeBrace], by simp, ?_, .record hd⟩
    refine ⟨mid, reads_identifier.mp hname, mid', ((reads_symbol (by decide)).mp hopen).2, ?_⟩
    refine spells_append.mpr ⟨mid'', hs, spells_singleton.mpr ?_⟩
    exact ((reads_symbol (by decide)).mp hclose).2
  · obtain ⟨name, mid, hname, hr⟩ := reads_bind.mp hr
    obtain ⟨members, mid', hmembers, hr⟩ := reads_bind.mp hr
    obtain ⟨rfl, rfl⟩ := reads_pure.mp hr
    obtain ⟨tokens, hs, hd⟩ := members_sound hmembers
    exact ⟨word name :: tokens, by simp, ⟨mid, reads_identifier.mp hname, hs⟩, .positional hd⟩

theorem reads_constructorDraft_of_record {name : String} {text mid after last rest : List Char}
    {members : List (Located Member)} (hname : (word name).Begins text mid)
    (hopen : (sign openBrace).Begins mid after)
    (hmembers : Reads (sepBy1 (symbol ",") (located field)) after members last)
    (hclose : (sign closeBrace).Begins last rest) :
    Reads constructorDraft text ⟨name, members⟩ rest := by
  refine reads_choice_pair.mpr (.inl ?_)
  refine reads_bind.mpr ⟨_, mid, reads_identifier.mpr hname, ?_⟩
  refine reads_bind.mpr ⟨_, after, (reads_symbol (by decide)).mpr ⟨rfl, hopen⟩, ?_⟩
  refine reads_bind.mpr ⟨_, last, hmembers, ?_⟩
  refine reads_bind.mpr ⟨_, rest, (reads_symbol (by decide)).mpr ⟨rfl, hclose⟩, ?_⟩
  exact reads_pure.mpr ⟨rfl, rfl⟩

theorem reads_constructorDraft_of_members {name : String} {text mid rest : List Char}
    {members : List (Located Member)} (hname : (word name).Begins text mid)
    (hopen : ∀ after, ¬ (sign openBrace).Begins mid after)
    (hmembers : Reads (many (located member)) mid members rest) :
    Reads constructorDraft text ⟨name, members⟩ rest := by
  -- the record form is tried first, and fails for want of a brace
  have hno : Refuses recordConstructor text := by
    intro value rest' hr
    obtain ⟨name, mid', hname', hr⟩ := reads_bind.mp hr
    obtain ⟨_, after, hsign, -⟩ := reads_bind.mp hr
    obtain ⟨-, rfl⟩ := hname.unique (reads_identifier.mp hname')
    exact hopen after ((reads_symbol (by decide)).mp hsign).2
  refine reads_choice_pair.mpr (.inr ⟨hno, ?_⟩)
  refine reads_bind.mpr ⟨_, mid, reads_identifier.mpr hname, ?_⟩
  exact reads_bind.mpr ⟨_, rest, hmembers, reads_pure.mpr ⟨rfl, rfl⟩⟩

theorem itemComplete_constructorDraft :
    ItemComplete constructorDraft (DerivesConstructor true) ConstructorDraft.view
      EndsConstructor := by
  intro tokens c text rest hd hs hend
  cases hd with
  | record hd =>
    obtain ⟨mid, hname, mid', hopen, hs⟩ := hs
    obtain ⟨mid'', hs, hclose⟩ := spells_append.mp hs
    replace hclose := spells_singleton.mp hclose
    have hne : ∀ tokens value, DerivesField tokens value → tokens ≠ [] := by
      rintro _ _ ⟨_⟩
      simp
    obtain ⟨members, hmembers, rfl⟩ := (itemComplete_field.located hne).separated
      itemSound_field.located (by decide)
      (fun _ _ hb _ => stops_type_of_begins hb (by decide) (by decide)) hd hs
      (fun _ => stops_type_of_begins hclose (by decide) (by decide))
      (fun _ => hclose.not_begins (by decide))
    exact ⟨⟨_, members⟩, reads_constructorDraft_of_record hname hopen hmembers hclose, rfl⟩
  | positional hd =>
    obtain ⟨mid, hname, hs⟩ := hs
    obtain ⟨members, hmembers, rfl⟩ := members_complete hd hs hend
    refine ⟨⟨_, members⟩, reads_constructorDraft_of_members hname ?_ hmembers, rfl⟩
    exact fun _ => hd.not_begins hs hend (by decide) (by decide)

/-! ## Declarations -/

/-- A declaration as read, without places. -/
def DeclarationDraft.reading (draft : DeclarationDraft) : Reading :=
  ⟨draft.name, draft.parameters.map (·.item), draft.constructors.map (·.item.view)⟩

theorem itemSound_parameter : ItemSound parameter DerivesParameter id := by
  intro text p rest hr
  obtain ⟨tokens, hs, hd⟩ := reads_parameter.mp hr
  exact ⟨tokens, hd.ne_nil, hs, hd⟩

theorem itemComplete_parameter : ItemComplete parameter DerivesParameter id fun _ => True :=
  fun _ _ _ _ hd hs _ => ⟨_, reads_parameter.mpr ⟨_, hs, hd⟩, rfl⟩

theorem refuses_located_parameter {text mid : List Char} (h : (sign "=").Begins text mid) :
    Refuses (located parameter) text := by
  rintro ⟨place, p⟩ rest hr
  obtain ⟨tokens, hne, hs, hd⟩ := itemSound_parameter.located hr
  cases (show DerivesParameter tokens p from hd) with
  | plain => exact h.not_begins (by simp) (spells_singleton.mp hs)
  | bounded =>
    obtain ⟨mid', hopen, -⟩ := spells_cons.mp hs
    exact h.not_begins (by decide) hopen

theorem isName_data : IsName "data" := by
  refine ⟨'d', ['a', 't', 'a'], rfl, by decide, fun c hc => ?_⟩
  simp only [List.mem_cons, List.not_mem_nil, or_false] at hc
  rcases hc with rfl | rfl | rfl | rfl <;> decide

/-- The rule for a declaration, step by step. -/
theorem reads_declarationDraft {text rest : List Char} {draft : DeclarationDraft} :
    Reads declarationDraft text draft rest ↔
      ∃ mid mid' mid'' after last, (word "data").Begins text mid ∧
        (word draft.name).Begins mid mid' ∧
        Reads (many (located parameter)) mid' draft.parameters mid'' ∧
        (sign "=").Begins mid'' after ∧
        Reads (sepBy1 (symbol "|") (located constructorDraft)) after draft.constructors last ∧
        (∀ c ∈ last, Text.isBlank c = true) ∧ rest = [] := by
  constructor
  · intro hr
    obtain ⟨_, mid, hdata, hr⟩ := reads_bind.mp hr
    obtain ⟨name, mid', hname, hr⟩ := reads_bind.mp hr
    obtain ⟨parameters, mid'', hparameters, hr⟩ := reads_bind.mp hr
    obtain ⟨_, after, hequals, hr⟩ := reads_bind.mp hr
    obtain ⟨constructors, last, hconstructors, hr⟩ := reads_bind.mp hr
    obtain ⟨_, rest', hend, hr⟩ := reads_bind.mp hr
    obtain ⟨rfl, rfl⟩ := reads_pure.mp hr
    obtain ⟨hblank, rfl⟩ := reads_endOfInput.mp hend
    exact ⟨mid, mid', mid'', after, last, ((reads_keyword isName_data).mp hdata).2,
      reads_identifier.mp hname, hparameters, ((reads_symbol (by decide)).mp hequals).2,
      hconstructors, hblank, rfl⟩
  · rintro ⟨mid, mid', mid'', after, last, hdata, hname, hparameters, hequals, hconstructors,
      hblank, rfl⟩
    refine reads_bind.mpr ⟨_, mid, (reads_keyword isName_data).mpr ⟨rfl, hdata⟩, ?_⟩
    refine reads_bind.mpr ⟨_, mid', reads_identifier.mpr hname, ?_⟩
    refine reads_bind.mpr ⟨_, mid'', hparameters, ?_⟩
    refine reads_bind.mpr ⟨_, after, (reads_symbol (by decide)).mpr ⟨rfl, hequals⟩, ?_⟩
    refine reads_bind.mpr ⟨_, last, hconstructors, ?_⟩
    exact reads_bind.mpr ⟨(), [], reads_endOfInput.mpr ⟨hblank, rfl⟩, reads_pure.mpr ⟨rfl, rfl⟩⟩

/-- The rules read exactly what a greedy derivation describes. -/
theorem describes_iff_reads {text : List Char} {r : Reading} :
    Describes true text r ↔
      ∃ draft rest, Reads declarationDraft text draft rest ∧ draft.reading = r := by
  have hnil : ∀ tokens c, DerivesConstructor true tokens c → tokens ≠ [] := by
    rintro tokens c (_ | _) <;> simp
  constructor
  · rintro ⟨tokens, rest, hs, hblank, ⟨hp, hc⟩⟩
    obtain ⟨mid, hdata, mid', hname, hs⟩ := hs
    obtain ⟨mid'', hsp, after, hequals, hsc⟩ := spells_append.mp hs
    obtain ⟨parameters, hparameters, rfl⟩ :=
      (itemComplete_parameter.located fun _ _ hd => hd.ne_nil).star itemSound_parameter.located
        hp hsp (refuses_located_parameter hequals)
    obtain ⟨constructors, hconstructors, rfl⟩ :=
      (itemComplete_constructorDraft.located hnil).separated itemSound_constructorDraft.located
        (by decide) (fun _ mid hb => .inl ⟨mid, hb⟩) hc hsc (.inr hblank)
        (fun _ => not_begins_of_blank hblank)
    exact ⟨⟨_, parameters, constructors⟩, [], reads_declarationDraft.mpr ⟨mid, mid', mid'', after,
      rest, hdata, hname, hparameters, hequals, hconstructors, hblank, rfl⟩, rfl⟩
  · rintro ⟨draft, rest, hr, rfl⟩
    obtain ⟨mid, mid', mid'', after, last, hdata, hname, hparameters, hequals, hconstructors,
      hblank, -⟩ := reads_declarationDraft.mp hr
    obtain ⟨tokens, hsp, hp⟩ := itemSound_parameter.located.star hparameters
    obtain ⟨tokens', hsc, hc⟩ :=
      itemSound_constructorDraft.located.separated (by decide) hconstructors
    refine ⟨word "data" :: word draft.name :: tokens ++ sign "=" :: tokens', last, ?_, hblank,
      .declaration hp hc⟩
    exact ⟨mid, hdata, mid', hname, spells_append.mpr ⟨mid'', hsp, after, hequals, hsc⟩⟩

/-! ## The checks of names -/

theorem ConstructorDraft.check_eq_ok_iff {draft : ConstructorDraft} {start : List Char}
    {c : Constructor} : draft.check start = .ok c ↔ (c.name, c.members) = draft.view := by
  rw [ConstructorDraft.check, Except.mapError_eq_ok_iff, Constructor.ofMembers_eq_ok_iff,
    ConstructorDraft.view]

theorem mapM_check_eq_ok_iff {drafts : List (Located ConstructorDraft)}
    {constructors : List Constructor} :
    drafts.mapM (fun c => c.item.check c.start) = .ok constructors ↔
      constructors.map (fun c => (c.name, c.members)) = drafts.map (·.item.view) := by
  simp only [Except.mapM_eq_ok_iff, ConstructorDraft.check_eq_ok_iff]
  rw [eq_comm, ← List.forall₂_eq_eq_eq, List.forall₂_map_left_iff, List.forall₂_map_right_iff]
  simp only [eq_comm]

/-- The check of a draft returns the declaration that says what the draft says. -/
theorem DeclarationDraft.check_eq_ok_iff {draft : DeclarationDraft} {start : List Char}
    {d : Declaration} : draft.check start = .ok d ↔ d.reading = draft.reading := by
  simp only [DeclarationDraft.check, Except.bind_eq_ok_iff, Except.mapError_eq_ok_iff,
    mapM_check_eq_ok_iff, Declaration.ofConstructors_eq_ok_iff, Declaration.reading,
    DeclarationDraft.reading, Reading.mk.injEq]
  constructor
  · rintro ⟨cs, hcs, hname, hparameters, rfl⟩
    exact ⟨hname, hparameters, hcs⟩
  · rintro ⟨hname, hparameters, hcs⟩
    exact ⟨d.constructors, hcs, hname, hparameters, rfl⟩

/-! ## The parser -/

/-- The parser reads a draft and checks it. -/
theorem parse_eq (source : String) :
    parse source = ((declarationDraft source.toList).bind fun success =>
      success.1.check (Text.skipBlanks source.toList)).mapError
        (·.relabel "a data declaration") := by
  have hdeclaration : declaration source.toList =
      ((declarationDraft >>= fun draft => liftM (draft.check (Text.skipBlanks source.toList)) :
        Rule Declaration) source.toList).mapError (·.relabel "a data declaration") := rfl
  rw [parse, hdeclaration, bind_apply]
  cases declarationDraft source.toList with
  | error failure => rfl
  | ok success =>
    simp only [Except.bind]
    cases success.1.check (Text.skipBlanks source.toList) with
    | error failure => rfl
    | ok d => rfl

/-- The parser returns the declaration of the greedy derivation of the text. -/
theorem parse_eq_ok_iff_describes {source : String} {d : Declaration} :
    parse source = .ok d ↔ Describes true source.toList d.reading := by
  rw [parse_eq, Except.mapError_eq_ok_iff, describes_iff_reads]
  constructor
  · intro h
    obtain ⟨⟨draft, rest⟩, hr, hcheck⟩ := Except.bind_eq_ok_iff.mp h
    exact ⟨draft, rest, hr, (DeclarationDraft.check_eq_ok_iff.mp hcheck).symm⟩
  · rintro ⟨draft, rest, hr, heq⟩
    exact Except.bind_eq_ok_iff.mpr
      ⟨(draft, rest), hr, DeclarationDraft.check_eq_ok_iff.mpr heq.symm⟩

theorem Separated.ne_nil {α : Type} {separator : Token} {item : List Token → α → Prop}
    {tokens : List Token} {values : List α} (h : Separated separator item tokens values) :
    values ≠ [] := by
  cases h <;> simp

theorem Separated.forall_mem {α : Type} {separator : Token} {item : List Token → α → Prop}
    {tokens : List Token} {values : List α} (h : Separated separator item tokens values) :
    ∀ value ∈ values, ∃ tokens, item tokens value := by
  induction h with
  | last hd => simpa using ⟨_, hd⟩
  | more hd _ ih => simpa using ⟨⟨_, hd⟩, ih⟩

theorem DerivesConstructor.uniform {greedy : Bool} {tokens : List Token}
    {c : String × List Member} (h : DerivesConstructor greedy tokens c) : Uniform c.2 := by
  cases h with
  | record hd =>
    refine .inl fun m hm => ?_
    obtain ⟨tokens, ⟨-⟩⟩ := hd.forall_mem m hm
    rfl
  | positional hd =>
    refine .inr fun m hm => ?_
    rw [hd.name_eq_none m hm]
    rfl

/-- What was read has constructors, and none of them mixes members. -/
theorem DeclarationDraft.uniform_of_reads {text rest : List Char} {draft : DeclarationDraft}
    (h : Reads declarationDraft text draft rest) :
    draft.constructors ≠ [] ∧ ∀ c ∈ draft.constructors, Uniform c.item.view.2 := by
  obtain ⟨-, -, -, -, ⟨-, hc⟩⟩ := describes_iff_reads.mpr ⟨draft, rest, h, rfl⟩
  refine ⟨fun hnil => hc.ne_nil (by simp [hnil]), fun c hmem => ?_⟩
  obtain ⟨tokens, hd⟩ := hc.forall_mem _ (List.mem_map_of_mem hmem)
  exact hd.uniform

/-- Once names differ, what a text says is what some declaration says. -/
theorem Describes.exists_declaration {greedy : Bool} {text : List Char} {r : Reading}
    (h : Describes greedy text r) (hdistinct : r.Distinct) : ∃ d : Declaration, d.reading = r := by
  obtain ⟨tokens, rest, -, -, ⟨hp, hc⟩⟩ := h
  refine exists_declaration_of_distinct hc.ne_nil (fun c hmem => ?_) hdistinct
  obtain ⟨tokens, hd⟩ := hc.forall_mem c hmem
  exact hd.uniform

/-- The parser accepts exactly the texts that can be derived from the grammar with distinct names,
and returns the declaration of the greedy derivation. -/
theorem parse_accepts_exactly_grammar (source : String) :
    ((∃ d, parse source = .ok d) ↔ ∃ r, Describes false source.toList r ∧ r.Distinct) ∧
      ∀ d, parse source = .ok d ↔ Describes true source.toList d.reading := by
  refine ⟨⟨?_, ?_⟩, fun d => parse_eq_ok_iff_describes⟩
  · rintro ⟨d, hparse⟩
    exact ⟨d.reading, (parse_eq_ok_iff_describes.mp hparse).weaken, d.distinct_reading⟩
  · rintro ⟨r, hr, hdistinct⟩
    obtain ⟨r', hr', hdistinct'⟩ := hr.exists_greedy hdistinct
    obtain ⟨d, rfl⟩ := hr'.exists_declaration hdistinct'
    exact ⟨d, parse_eq_ok_iff_describes.mpr hr'⟩

-- the codomain takes `D`, so there is one member
example : (parse "data X = C B -> T D").map (·.constructors.map (·.members)) =
    .ok [[.positional (.arrow (.var "B") (.ref "T" [.var "D"]))]] := by
  cbv

end Grammar

end AlgebraicData
