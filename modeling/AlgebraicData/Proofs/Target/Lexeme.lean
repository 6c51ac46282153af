import AlgebraicData.Grammar.Rule
import AlgebraicData.Target.Printer
import AlgebraicData.Proofs.Grammar.Token
import AlgebraicData.Proofs.Name.Casing

/-!
# The lexemes of the generated code

A reader of the generated code first cuts the text into lexemes: words, string literals and signs,
with blanks between them that mean nothing.  `Lexeme.next?` cuts off one lexeme, a word as long as
it can be and a string literal up to the first quote that is not escaped, and `Spells` cuts a whole
text.  It says nothing about how the text came to be.

The printer's side is `Writes`: the characters spell the lexemes wherever the text goes on with
something that does not lengthen a word.
-/

namespace AlgebraicData.Target

open Layout

/-! ## String literals -/

/-- What the character stands for after a backslash. -/
def unescape? : Char → Option Char
  | '"' => some '"'
  | '\\' => some '\\'
  | 'n' => some '\n'
  | _ => none

/-- What a string literal holds from here to its closing quote, and the text after that quote. -/
def literalBody? : List Char → Option (List Char × List Char)
  | [] => none
  | '"' :: rest => some ([], rest)
  | '\n' :: _ => none
  | ['\\'] => none
  | '\\' :: escape :: rest => do
    let c ← unescape? escape
    let scanned ← literalBody? rest
    return (c :: scanned.1, scanned.2)
  | c :: rest => (literalBody? rest).map fun scanned => (c :: scanned.1, scanned.2)

theorem literalBody?_quoteChar (c : Char) (text : List Char) :
    literalBody? (quoteChar c ++ text) =
      (literalBody? text).map fun scanned => (c :: scanned.1, scanned.2) := by
  unfold quoteChar
  split_ifs with hquote hbackslash hnewline
  · subst hquote
    exact (Option.map_eq_bind ..).symm
  · subst hbackslash
    exact (Option.map_eq_bind ..).symm
  · subst hnewline
    exact (Option.map_eq_bind ..).symm
  · rw [List.singleton_append, literalBody?] <;> simp_all

/-- Quoting can be undone, whatever follows the closing quote. -/
theorem literalBody?_flatMap_quoteChar (value rest : List Char) :
    literalBody? (value.flatMap quoteChar ++ '"' :: rest) = some (value, rest) := by
  induction value with
  | nil => rfl
  | cons c value ih =>
    rw [List.flatMap_cons, List.append_assoc, literalBody?_quoteChar, ih, Option.map_some]

/-! ## Signs -/

/-- The signs that types and expressions are written with. -/
inductive Sign where
  | openParen | closeParen | openBracket | closeBracket | openBrace | closeBrace
  | openAngle | closeAngle | comma | dot | colon | semicolon | bar | arrow | and | strictEq
deriving DecidableEq, Repr

namespace Sign

/-- All signs. -/
def all : List Sign := [
  .openParen, .closeParen, .openBracket, .closeBracket, .openBrace, .closeBrace, .openAngle,
  .closeAngle, .comma, .dot, .colon, .semicolon, .bar, .arrow, .and, .strictEq]

/-- The characters of a sign. -/
def text : Sign → List Char
  | .openParen => ['(']
  | .closeParen => [')']
  | .openBracket => ['[']
  | .closeBracket => [']']
  | .openBrace => ['{']
  | .closeBrace => ['}']
  | .openAngle => ['<']
  | .closeAngle => ['>']
  | .comma => [',']
  | .dot => ['.']
  | .colon => [':']
  | .semicolon => [';']
  | .bar => ['|']
  | .arrow => ['=', '>']
  | .and => ['&', '&']
  | .strictEq => ['=', '=', '=']

theorem mem_all (sign : Sign) : sign ∈ all := by
  cases sign <;> decide

/-- No sign is the front of another. -/
theorem eq_of_prefix_text :
    ∀ sign ∈ all, ∀ sign' ∈ all, sign.text <+: sign'.text → sign = sign' := by
  decide

/-- A sign is told by its first character from a blank, a string literal and a word. -/
theorem exists_text_eq_cons (sign : Sign) :
    ∃ c more, sign.text = c :: more ∧ c.isWhitespace = false ∧ c ≠ '"' ∧
      isIdentifierRest c = false := by
  cases sign <;> exact ⟨_, _, rfl, by decide, by decide, by decide⟩

/-- The sign in front of a text, and what follows it. -/
def next? (text : List Char) : Option (Sign × List Char) :=
  all.findSome? fun sign => (Rule.textAfter? sign.text text).map fun rest => (sign, rest)

theorem next?_append (sign : Sign) (rest : List Char) :
    next? (sign.text ++ rest) = some (sign, rest) := by
  have hsome : (next? (sign.text ++ rest)).isSome := by
    refine List.findSome?_isSome_iff.mpr ⟨sign, mem_all sign, ?_⟩
    rw [Token.textAfter?_eq_some_iff.mpr rfl]
    rfl
  obtain ⟨found, hfound⟩ := Option.isSome_iff_exists.mp hsome
  obtain ⟨sign', -, hsign'⟩ := List.exists_of_findSome?_eq_some hfound
  obtain ⟨rest', hrest', rfl⟩ := Option.map_eq_some_iff.mp hsign'
  have htext := Token.textAfter?_eq_some_iff.mp hrest'
  -- both signs stand in front of the same text, so one is the front of the other
  have heq : sign = sign' := by
    rcases List.prefix_or_prefix_of_prefix ⟨rest, rfl⟩ ⟨rest', htext.symm⟩ with h | h
    · exact eq_of_prefix_text _ (mem_all _) _ (mem_all _) h
    · exact (eq_of_prefix_text _ (mem_all _) _ (mem_all _) h).symm
  subst heq
  rw [hfound, List.append_cancel_left htext]

end Sign

/-! ## Lexemes -/

/-- A lexeme of the generated code. -/
inductive Lexeme where
  /-- An identifier or a reserved word. -/
  | word (name : String)
  /-- A string literal. -/
  | str (value : String)
  | sign (sign : Sign)
deriving DecidableEq, Repr

/-- The lexeme in front of a text, after any blanks, and what follows it. -/
def Lexeme.next? (text : List Char) : Option (Lexeme × List Char) :=
  match text.dropWhile Char.isWhitespace with
  | [] => none
  | c :: rest =>
    if c = '"' then
      (literalBody? rest).map fun scanned => (.str (String.ofList scanned.1), scanned.2)
    else if isIdentifierFirst c then
      some (.word (String.ofList (c :: rest.takeWhile isIdentifierRest)),
        rest.dropWhile isIdentifierRest)
    else
      (Sign.next? (c :: rest)).map fun found => (.sign found.1, found.2)

/-- The whole text is cut into the lexemes. -/
inductive Spells : List Char → List Lexeme → Prop where
  | nil {text : List Char} : (∀ c ∈ text, c.isWhitespace = true) → Spells text []
  | cons {text rest : List Char} {lexeme : Lexeme} {lexemes : List Lexeme} :
      Lexeme.next? text = some (lexeme, rest) → Spells rest lexemes →
      Spells text (lexeme :: lexemes)

theorem Lexeme.next?_of_blank {text : List Char} (h : ∀ c ∈ text, c.isWhitespace = true) :
    Lexeme.next? text = none := by
  rw [next?, List.dropWhile_eq_nil_iff.mpr h]

/-- A text is cut in one way only. -/
theorem Spells.unique {text : List Char} {lexemes lexemes' : List Lexeme}
    (h : Spells text lexemes) (h' : Spells text lexemes') : lexemes = lexemes' := by
  induction h generalizing lexemes' with
  | nil hblank =>
    cases h' with
    | nil => rfl
    | cons hnext =>
      rw [Lexeme.next?_of_blank hblank] at hnext
      cases hnext
  | cons hnext _ ih =>
    cases h' with
    | nil hblank =>
      rw [Lexeme.next?_of_blank hblank] at hnext
      cases hnext
    | cons hnext' hrest' =>
      obtain ⟨rfl, rfl⟩ := Prod.mk.inj (Option.some.inj (hnext.symm.trans hnext'))
      rw [ih hrest']

/-- A blank in front changes nothing. -/
theorem Spells.space {text : List Char} {lexemes : List Lexeme} (h : Spells text lexemes) :
    Spells (' ' :: text) lexemes := by
  cases h with
  | nil hblank => exact .nil (List.forall_mem_cons.mpr ⟨by decide, hblank⟩)
  | cons hnext hrest => exact .cons hnext hrest

/-! ## Writing lexemes -/

/-- A word in front of the text would end there. -/
def EndsWord (text : List Char) : Prop :=
  ∀ c ∈ text.head?, isIdentifierRest c = false

/-- The longest run of word characters ends there too. -/
theorem EndsWord.longest_append {chars rest : List Char} (h : EndsWord rest)
    (hchars : ∀ c ∈ chars, isIdentifierRest c = true) :
    (chars ++ rest).takeWhile isIdentifierRest = chars ∧
      (chars ++ rest).dropWhile isIdentifierRest = rest := by
  rw [List.takeWhile_append_of_pos hchars, List.dropWhile_append_of_pos hchars]
  cases rest with
  | nil => simp
  | cons c rest =>
    have hc : isIdentifierRest c = false := h c rfl
    simp [hc]

/-- The characters spell the lexemes, whatever follows that does not lengthen a word. -/
def Writes (text : List Char) (lexemes : List Lexeme) : Prop :=
  ∀ ⦃rest more⦄, EndsWord rest → Spells rest more → Spells (text ++ rest) (lexemes ++ more)

theorem writes_nil : Writes [] [] :=
  fun _ _ _ h => h

theorem Writes.spells {text : List Char} {lexemes : List Lexeme} (h : Writes text lexemes) :
    Spells text lexemes := by
  have hnil : EndsWord [] := fun c hc => by cases hc
  simpa using h hnil (.nil (List.forall_mem_nil _))

theorem Writes.append {text text' : List Char} {lexemes lexemes' : List Lexeme}
    (h : Writes text lexemes) (h' : Writes text' lexemes') (hend : EndsWord text') :
    Writes (text ++ text') (lexemes ++ lexemes') := by
  intro rest more hrest hmore
  rw [List.append_assoc, List.append_assoc]
  refine h ?_ (h' hrest hmore)
  cases text' with
  | nil => exact hrest
  | cons c text' => exact hend

theorem Writes.space {text : List Char} {lexemes : List Lexeme} (h : Writes text lexemes) :
    Writes (' ' :: text) lexemes :=
  fun _ _ hrest hmore => (h hrest hmore).space

theorem Writes.sign {text : List Char} {lexemes : List Lexeme} (h : Writes text lexemes)
    (sign : Sign) : Writes (sign.text ++ text) (.sign sign :: lexemes) := by
  intro rest more hrest hmore
  rw [List.append_assoc]
  refine .cons ?_ (h hrest hmore)
  obtain ⟨c, chars, htext, hblank, hquote, hword⟩ := sign.exists_text_eq_cons
  have hfirst : isIdentifierFirst c = false := by
    by_contra hc
    rw [isIdentifierRest_of_first (by simpa using hc)] at hword
    cases hword
  have hnext := sign.next?_append (text ++ rest)
  rw [htext, List.cons_append] at hnext ⊢
  simp [Lexeme.next?, hblank, hquote, hfirst, hnext]

theorem Lexeme.next?_quote_append (value : String) (rest : List Char) :
    Lexeme.next? ((quote value).toList ++ rest) = some (.str value, rest) := by
  have hbody := literalBody?_flatMap_quoteChar value.toList rest
  have hblank : '"'.isWhitespace = false := by decide
  simp [quote, Lexeme.next?, hblank, hbody]

theorem writes_quote (value : String) : Writes (quote value).toList [.str value] :=
  fun rest _ _ hmore => .cons (Lexeme.next?_quote_append value rest) hmore

theorem isWhitespace_of_isIdentifierFirst {c : Char} (h : isIdentifierFirst c = true) :
    c.isWhitespace = false := by
  by_contra hc
  simp only [Char.isWhitespace, Bool.not_eq_false, Bool.or_eq_true, decide_eq_true_eq] at hc
  rcases hc with ((rfl | rfl) | rfl) | rfl <;> exact absurd h (by decide)

theorem Lexeme.next?_word_append {name : String} (h : isIdentifier name = true) {rest : List Char}
    (hrest : EndsWord rest) : Lexeme.next? (name.toList ++ rest) = some (.word name, rest) := by
  cases hname : name.toList with
  | nil => simp [isIdentifier, hname, spellsIdentifier] at h
  | cons c chars =>
    simp only [isIdentifier, hname, spellsIdentifier, Bool.and_eq_true, List.all_eq_true] at h
    have hblank : c.isWhitespace = false := isWhitespace_of_isIdentifierFirst h.1
    have hquote : c ≠ '"' := by
      rintro rfl
      exact absurd h.1 (by decide)
    obtain ⟨htake, hdrop⟩ := hrest.longest_append h.2
    rw [Lexeme.next?, List.cons_append, List.dropWhile_cons_of_neg (by simp [hblank])]
    simp only [hquote, if_false, h.1, if_true, htake, hdrop, ← hname, String.ofList_toList]

theorem writes_word {name : String} (h : isIdentifier name = true) :
    Writes name.toList [.word name] :=
  fun _ _ hrest hmore => .cons (Lexeme.next?_word_append h hrest) hmore

end AlgebraicData.Target
