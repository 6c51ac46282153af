import AlgebraicData.Grammar.Token
import AlgebraicData.Text.Brace
import AlgebraicData.Proofs.Grammar.Rule

/-!
# Tokens as they stand in a text

The grammar speaks of tokens, and a rule reads characters.  `Token.Begins` says that a token stands
at the front of a text, after any number of blanks: a word is a longest run of characters that do
not end a name, a sign is one of the signs of the grammar.  `Spells` strings tokens together.

Two facts carry everything that follows: the rules for single tokens read exactly the tokens that
stand in front (`reads_identifier`, `reads_symbol`, …), and at most one token does
(`Token.Begins.unique`), so that the token which stands there refutes all the others.
-/

namespace AlgebraicData

/-- A token of the grammar. -/
inductive Token where
  /-- A name, or the word `data`. -/
  | word (name : String)
  /-- A sign such as `->`. -/
  | sign (text : String)
deriving DecidableEq, Repr

namespace Token

/-- Whether a text can be read as a name: it is not empty, does not begin with a digit, and holds
neither a sign character nor a blank. -/
def IsName (name : String) : Prop :=
  ∃ first more, name.toList = first :: more ∧ first.isDigit = false ∧
    ∀ c ∈ first :: more, isPunctuation c = false

/-- The signs that the grammar uses. -/
def signTexts : List String :=
  ["(", ")", ",", "->", "::", "=", "|", openBrace, closeBrace]

/-- The characters of a token. -/
def characters : Token → List Char
  | .word name => name.toList
  | .sign text => text.toList

/-- Whether the grammar has the token. -/
def IsLexical : Token → Prop
  | .word name => IsName name
  | .sign text => text ∈ signTexts

/-- Whether the token is complete where `rest` follows: a word is as long as it can be. -/
def EndsBefore : Token → List Char → Prop
  | .word _, rest => continuesName rest = false
  | .sign _, _ => True

/-- The token stands at the front of the text, after any blanks, and `rest` follows it. -/
def Begins (token : Token) (text rest : List Char) : Prop :=
  ∃ blanks, (∀ c ∈ blanks, Text.isBlank c = true) ∧
    text = blanks ++ (token.characters ++ rest) ∧ token.IsLexical ∧ token.EndsBefore rest

/-! ## The first character of a token -/

theorem IsName.all_isNameRest {name : String} (h : IsName name) :
    ∀ c ∈ name.toList, isNameRest c = true := by
  obtain ⟨first, more, hname, -, hall⟩ := h
  intro c hc
  rw [hname] at hc
  simp [isNameRest, hall c hc]

theorem isBlank_of_isPunctuation_eq_false {c : Char} (h : isPunctuation c = false) :
    Text.isBlank c = false := by
  simp only [isPunctuation, Bool.or_eq_false_iff] at h
  exact h.1

/-- Every sign begins with a sign character, which is not a blank. -/
theorem exists_first_of_mem_signTexts :
    ∀ text ∈ signTexts, ∃ first more, text.toList = first :: more ∧
      isPunctuation first = true ∧ Text.isBlank first = false := by
  intro text hmem
  simp only [signTexts, List.mem_cons, List.not_mem_nil, or_false] at hmem
  rcases hmem with rfl | rfl | rfl | rfl | rfl | rfl | rfl | rfl | rfl <;>
    exact ⟨_, _, rfl, by decide, by decide⟩

/-- Signs differ in their first characters. -/
theorem head?_injOn_signTexts :
    ∀ s ∈ signTexts, ∀ t ∈ signTexts, s.toList.head? = t.toList.head? → s = t := by
  decide

theorem IsLexical.exists_first {token : Token} (h : token.IsLexical) :
    ∃ first more, token.characters = first :: more ∧ Text.isBlank first = false := by
  cases token with
  | word name =>
    obtain ⟨first, more, hname, -, hall⟩ := h
    exact ⟨first, more, hname, isBlank_of_isPunctuation_eq_false (hall first (by simp))⟩
  | sign text =>
    obtain ⟨first, more, htext, -, hblank⟩ := exists_first_of_mem_signTexts text h
    exact ⟨first, more, htext, hblank⟩

theorem skipBlanks_append {blanks text : List Char}
    (h : ∀ c ∈ blanks, Text.isBlank c = true) :
    Text.skipBlanks (blanks ++ text) = Text.skipBlanks text :=
  List.dropWhile_append_of_pos h

theorem skipBlanks_eq_self {first : Char} {more : List Char} (h : Text.isBlank first = false) :
    Text.skipBlanks (first :: more) = first :: more :=
  List.dropWhile_cons_of_neg (by simp [h])

/-- A token stands in front exactly if it does once the blanks are skipped. -/
theorem begins_iff {token : Token} {text rest : List Char} :
    token.Begins text rest ↔
      Text.skipBlanks text = token.characters ++ rest ∧ token.IsLexical ∧
        token.EndsBefore rest := by
  constructor
  · rintro ⟨blanks, hblanks, rfl, hlex, hend⟩
    refine ⟨?_, hlex, hend⟩
    obtain ⟨first, more, hchars, hfirst⟩ := hlex.exists_first
    rw [skipBlanks_append hblanks, hchars, List.cons_append, skipBlanks_eq_self hfirst]
  · rintro ⟨hskip, hlex, hend⟩
    refine ⟨text.takeWhile Text.isBlank, ?_, ?_, hlex, hend⟩
    · intro c hc
      exact List.mem_takeWhile_imp hc
    · rw [← hskip]
      exact List.takeWhile_append_dropWhile.symm

/-- Skipping blanks beforehand changes nothing. -/
theorem begins_skipBlanks {token : Token} {text rest : List Char} :
    token.Begins (Text.skipBlanks text) rest ↔ token.Begins text rest := by
  constructor
  · rintro ⟨blanks, hblanks, hskip, hlex, hend⟩
    refine begins_iff.mpr ⟨?_, hlex, hend⟩
    cases blanks with
    | nil => exact hskip
    | cons c blanks =>
      -- what is left after skipping does not begin with a blank
      have hhead := List.head?_dropWhile_not Text.isBlank text
      rw [show text.dropWhile Text.isBlank = _ from hskip] at hhead
      simp [hblanks c (by simp)] at hhead
  · intro h
    obtain ⟨hskip, hlex, hend⟩ := begins_iff.mp h
    exact ⟨[], by simp, hskip, hlex, hend⟩

theorem Begins.length_lt {token : Token} {text rest : List Char} (h : token.Begins text rest) :
    rest.length < text.length := by
  obtain ⟨blanks, -, rfl, hlex, -⟩ := h
  obtain ⟨first, more, hchars, -⟩ := hlex.exists_first
  simp only [hchars, List.length_append, List.length_cons]
  omega

/-! ## The rules for single tokens -/

theorem isNameFirst_iff {c : Char} :
    isNameFirst c = true ↔ c.isDigit = false ∧ isPunctuation c = false := by
  simp [isNameFirst]

/-- The longest run of name characters ends where a name would. -/
theorem continuesName_dropWhile (text : List Char) :
    continuesName (text.dropWhile isNameRest) = false := by
  induction text with
  | nil => rfl
  | cons c text ih =>
    by_cases hc : isNameRest c = true
    · rw [List.dropWhile_cons_of_pos hc]
      exact ih
    · rw [List.dropWhile_cons_of_neg hc]
      simpa [continuesName] using hc

theorem takeWhile_dropWhile_of_ends {name rest : List Char}
    (hall : ∀ c ∈ name, isNameRest c = true) (hend : continuesName rest = false) :
    (name ++ rest).takeWhile isNameRest = name ∧
      (name ++ rest).dropWhile isNameRest = rest := by
  rw [List.takeWhile_append_of_pos hall, List.dropWhile_append_of_pos hall]
  cases rest with
  | nil => simp
  | cons c rest =>
    have hc : ¬ isNameRest c = true := by simpa [continuesName] using hend
    simp [hc]

theorem reads_identifier {text rest : List Char} {name : String} :
    Rule.Reads identifier text name rest ↔ (word name).Begins text rest := by
  rw [begins_iff]
  unfold Rule.Reads identifier
  constructor
  · intro h
    dsimp only at h
    split at h
    · cases h
    · rename_i c more hskip
      split at h
      · rename_i hfirst
        obtain ⟨hname, hrest⟩ := Prod.mk.inj (Except.ok.inj h)
        obtain ⟨hdigit, hpunct⟩ := isNameFirst_iff.mp hfirst
        have hc : isNameRest c = true := by simp [isNameRest, hpunct]
        subst hname hrest
        refine ⟨?_, ⟨c, more.takeWhile isNameRest, ?_, hdigit, ?_⟩, ?_⟩
        · simp [characters]
        · simp [hskip, hc]
        · intro x hx
          rw [← List.takeWhile_cons_of_pos hc] at hx
          simpa [isNameRest] using List.mem_takeWhile_imp hx
        · exact continuesName_dropWhile _
      · cases h
  · rintro ⟨hskip, hlex, hend⟩
    obtain ⟨htake, hdrop⟩ := takeWhile_dropWhile_of_ends hlex.all_isNameRest hend
    obtain ⟨first, more, hname, hdigit, hall⟩ := hlex
    have hfirst : isNameFirst first = true :=
      isNameFirst_iff.mpr ⟨hdigit, hall first (by simp)⟩
    simp only [characters] at hskip
    simp only [hskip, htake, hdrop, String.ofList_toList]
    simp only [hname, List.cons_append, hfirst, if_true]

theorem textAfter?_eq_some_iff {word text rest : List Char} :
    Rule.textAfter? word text = some rest ↔ text = word ++ rest := by
  fun_induction Rule.textAfter? word text with
  | case1 text => simp
  | case2 => simp
  | case3 c word text ih => simp [ih]
  | case4 c word d text hne => simp [Ne.symm hne]

theorem reads_symbol {text rest : List Char} {sign value : String} (hmem : sign ∈ signTexts) :
    Rule.Reads (symbol sign) text value rest ↔
      value = sign ∧ (Token.sign sign).Begins text rest := by
  rw [begins_iff]
  unfold Rule.Reads symbol
  simp only [characters, IsLexical, hmem, EndsBefore, and_true]
  cases h : Rule.textAfter? sign.toList (Text.skipBlanks text) with
  | none =>
    have hne : ¬ Text.skipBlanks text = sign.toList ++ rest := by
      intro heq
      rw [textAfter?_eq_some_iff.mpr heq] at h
      cases h
    simp [hne]
  | some mid =>
    have heq := textAfter?_eq_some_iff.mp h
    rw [heq]
    simp [eq_comm]

theorem reads_keyword {text rest : List Char} {name value : String} (hname : IsName name) :
    Rule.Reads (keyword name) text value rest ↔ value = name ∧ (word name).Begins text rest := by
  rw [begins_iff]
  unfold Rule.Reads keyword
  simp only [characters, IsLexical, hname, EndsBefore, true_and]
  cases h : Rule.textAfter? name.toList (Text.skipBlanks text) with
  | none =>
    have hne : ¬ Text.skipBlanks text = name.toList ++ rest := by
      intro heq
      rw [textAfter?_eq_some_iff.mpr heq] at h
      cases h
    simp [hne]
  | some mid =>
    have heq := textAfter?_eq_some_iff.mp h
    rw [heq]
    by_cases hc : continuesName mid = true
    · simp only [hc, if_true, reduceCtorEq, List.append_cancel_left_eq, false_iff]
      rintro ⟨-, rfl, hend⟩
      exact absurd (hc.symm.trans hend) (by decide)
    · simp only [hc]
      constructor
      · intro hok
        obtain ⟨rfl, rfl⟩ := Prod.mk.inj (Except.ok.inj hok)
        exact ⟨rfl, rfl, by simpa using hc⟩
      · rintro ⟨rfl, hmid, -⟩
        rw [List.append_cancel_left hmid]
        rfl

theorem reads_endOfInput {text rest : List Char} {value : Unit} :
    Rule.Reads endOfInput text value rest ↔
      (∀ c ∈ text, Text.isBlank c = true) ∧ rest = [] := by
  have hnil : Text.skipBlanks text = [] ↔ ∀ c ∈ text, Text.isBlank c = true :=
    List.dropWhile_eq_nil_iff
  unfold Rule.Reads endOfInput
  rw [← hnil]
  cases Text.skipBlanks text with
  | nil => simp [eq_comm]
  | cons c more => simp

theorem shrinks_identifier : Rule.Shrinks identifier :=
  fun _ _ _ h => (reads_identifier.mp h).length_lt

theorem shrinks_symbol {sign : String} (hmem : sign ∈ signTexts) : Rule.Shrinks (symbol sign) :=
  fun _ _ _ h => ((reads_symbol hmem).mp h).2.length_lt

/-! ## At most one token stands in front -/

/-- A name never begins as a sign does. -/
theorem Begins.not_begins_sign {name sign : String} {text rest rest' : List Char}
    (h : (word name).Begins text rest) : ¬ (Token.sign sign).Begins text rest' := by
  intro hs
  obtain ⟨hskip, ⟨first, more, hname, -, hall⟩, -⟩ := begins_iff.mp h
  obtain ⟨hskip', hmem, -⟩ := begins_iff.mp hs
  obtain ⟨first', more', htext, hpunct, -⟩ := exists_first_of_mem_signTexts sign hmem
  have heq := hskip.symm.trans hskip'
  simp only [characters, hname, htext, List.cons_append, List.cons.injEq] at heq
  have hfalse := hall first (by simp)
  rw [heq.1, hpunct] at hfalse
  cases hfalse

theorem Begins.unique {token token' : Token} {text rest rest' : List Char}
    (h : token.Begins text rest) (h' : token'.Begins text rest') :
    token = token' ∧ rest = rest' := by
  cases token with
  | word name =>
    cases token' with
    | word name' =>
      obtain ⟨rfl, rfl⟩ := (reads_identifier.mpr h).unique (reads_identifier.mpr h')
      exact ⟨rfl, rfl⟩
    | sign text' => exact absurd h' h.not_begins_sign
  | sign sign =>
    cases token' with
    | word name' => exact absurd h h'.not_begins_sign
    | sign sign' =>
      obtain ⟨hskip, hmem, -⟩ := begins_iff.mp h
      obtain ⟨hskip', hmem', -⟩ := begins_iff.mp h'
      have heq := hskip.symm.trans hskip'
      simp only [characters] at heq
      -- no two signs begin with the same character, so the first one decides
      have hhead : sign.toList.head? = sign'.toList.head? := by
        obtain ⟨first, more, hs, -⟩ := exists_first_of_mem_signTexts sign hmem
        obtain ⟨first', more', hs', -⟩ := exists_first_of_mem_signTexts sign' hmem'
        simp only [hs, hs', List.cons_append, List.cons.injEq] at heq
        simp [hs, hs', heq.1]
      obtain rfl := head?_injOn_signTexts sign hmem sign' hmem' hhead
      exact ⟨rfl, List.append_cancel_left heq⟩

/-- No token stands in front of blanks alone. -/
theorem not_begins_of_blank {token : Token} {text rest : List Char}
    (hblank : ∀ c ∈ text, Text.isBlank c = true) : ¬ token.Begins text rest := by
  rintro ⟨blanks, -, rfl, hlex, -⟩
  obtain ⟨first, more, hchars, hfirst⟩ := hlex.exists_first
  have := hblank first (by simp [hchars])
  rw [hfirst] at this
  cases this

/-! ## Texts and token lists -/

/-- The tokens stand at the front of the text one after another, and `rest` follows them. -/
def Spells : List Token → List Char → List Char → Prop
  | [], text, rest => text = rest
  | token :: tokens, text, rest => ∃ mid, token.Begins text mid ∧ Spells tokens mid rest

theorem spells_nil {text rest : List Char} : Spells [] text rest ↔ text = rest := Iff.rfl

theorem spells_cons {token : Token} {tokens : List Token} {text rest : List Char} :
    Spells (token :: tokens) text rest ↔
      ∃ mid, token.Begins text mid ∧ Spells tokens mid rest := Iff.rfl

theorem spells_singleton {token : Token} {text rest : List Char} :
    Spells [token] text rest ↔ token.Begins text rest := by
  simp [Spells]

theorem spells_append {tokens tokens' : List Token} {text rest : List Char} :
    Spells (tokens ++ tokens') text rest ↔
      ∃ mid, Spells tokens text mid ∧ Spells tokens' mid rest := by
  induction tokens generalizing text with
  | nil => simp [Spells]
  | cons token tokens ih =>
    simp only [List.cons_append, spells_cons, ih]
    constructor
    · rintro ⟨mid, hb, mid', ht, hr⟩
      exact ⟨mid', ⟨mid, hb, ht⟩, hr⟩
    · rintro ⟨mid', ⟨mid, hb, ht⟩, hr⟩
      exact ⟨mid, hb, mid', ht, hr⟩

theorem Spells.length_le {tokens : List Token} {text rest : List Char}
    (h : Spells tokens text rest) : rest.length ≤ text.length := by
  induction tokens generalizing text with
  | nil => rw [spells_nil.mp h]
  | cons token tokens ih =>
    obtain ⟨mid, hb, ht⟩ := h
    exact (ih ht).trans hb.length_lt.le

/-- The tokens between two places of a text are determined. -/
theorem Spells.unique {tokens tokens' : List Token} {text rest : List Char}
    (h : Spells tokens text rest) (h' : Spells tokens' text rest) : tokens = tokens' := by
  induction tokens generalizing tokens' text with
  | nil =>
    obtain rfl := spells_nil.mp h
    cases tokens' with
    | nil => rfl
    | cons token tokens' =>
      obtain ⟨mid, hb, ht⟩ := h'
      have := hb.length_lt
      have := ht.length_le
      omega
  | cons token tokens ih =>
    obtain ⟨mid, hb, ht⟩ := h
    cases tokens' with
    | nil =>
      obtain rfl := spells_nil.mp h'
      have := hb.length_lt
      have := ht.length_le
      omega
    | cons token' tokens' =>
      obtain ⟨mid', hb', ht'⟩ := h'
      obtain ⟨rfl, rfl⟩ := hb.unique hb'
      rw [ih ht ht']

theorem spells_skipBlanks {tokens : List Token} (hne : tokens ≠ []) {text rest : List Char} :
    Spells tokens (Text.skipBlanks text) rest ↔ Spells tokens text rest := by
  cases tokens with
  | nil => exact absurd rfl hne
  | cons token tokens => simp only [spells_cons, begins_skipBlanks]

/-- Every token of a text is one that the grammar has. -/
theorem Spells.isLexical {tokens : List Token} {text rest : List Char}
    (h : Spells tokens text rest) : ∀ token ∈ tokens, token.IsLexical := by
  induction tokens generalizing text with
  | nil => simp
  | cons token tokens ih =>
    obtain ⟨mid, ⟨_, _, _, hlex, _⟩, ht⟩ := h
    intro t hmem
    rcases List.mem_cons.mp hmem with rfl | hmem
    · exact hlex
    · exact ih ht t hmem

/-! ## Refusing a token -/

/-- A token that stands in front rules out every other. -/
theorem Begins.not_begins {token token' : Token} {text rest rest' : List Char}
    (h : token.Begins text rest) (hne : token ≠ token') : ¬ token'.Begins text rest' :=
  fun h' => hne (h.unique h').1

theorem Begins.refuses_identifier {text rest : List Char} {text' : String}
    (h : (Token.sign text').Begins text rest) : Rule.Refuses identifier text :=
  fun _ _ hr => h.not_begins Token.noConfusion (reads_identifier.mp hr)

theorem refuses_symbol {text : List Char} {sign : String} (hmem : sign ∈ signTexts)
    (h : ∀ rest, ¬ (Token.sign sign).Begins text rest) : Rule.Refuses (symbol sign) text :=
  fun _ rest hr => h rest ((reads_symbol hmem).mp hr).2

end Token

end AlgebraicData
