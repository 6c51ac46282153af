import AlgebraicData.Proofs.Target.Lexeme
import AlgebraicData.Proofs.Target.Lines

/-!
# Reading string literals and property keys back

Strings and property names are written into the middle of a text, and a reader has to find out where
they end.  `literal?` reads a string literal and `key?` a property key, and both hand back the text
that follows.

* `literal?_eq_some_iff` — the reader of literals accepts exactly the quoted strings, so each string
  has one spelling;
* `key?_propertyKey_append` — a key is read back whether it is bare or quoted: an identifier does not
  begin with a quote, and the name of a bare key goes on as long as a word does.
-/

namespace AlgebraicData.Target

/-! ## String literals -/

/-- The string of the literal in front of a text, and the text after its closing quote. -/
def literal? (text : String) : Option (String × String) :=
  match text.toList with
  | '"' :: rest =>
    (literalBody? rest).map fun scanned => (String.ofList scanned.1, String.ofList scanned.2)
  | _ => none

/-- An escape is the only spelling of the character it stands for. -/
theorem quoteChar_of_unescape? {escape c : Char} (h : unescape? escape = some c) :
    quoteChar c = ['\\', escape] := by
  unfold unescape? at h
  split at h
  · obtain rfl := Option.some.inj h
    rfl
  · obtain rfl := Option.some.inj h
    rfl
  · obtain rfl := Option.some.inj h
    rfl
  · cases h

/-- What is scanned up to the closing quote is what quoting would have put there. -/
theorem eq_of_literalBody? {text value rest : List Char}
    (h : literalBody? text = some (value, rest)) :
    text = value.flatMap quoteChar ++ '"' :: rest := by
  fun_induction literalBody? text generalizing value with
  | case1 => cases h
  | case2 rest' =>
    obtain ⟨rfl, rfl⟩ := Prod.mk.inj (Option.some.inj h)
    rfl
  | case3 => cases h
  | case4 => cases h
  | case5 escape text ih =>
    obtain ⟨c, hc, h⟩ := Option.bind_eq_some_iff.mp h
    obtain ⟨⟨value', rest'⟩, hscanned, h⟩ := Option.bind_eq_some_iff.mp h
    obtain ⟨rfl, rfl⟩ := Prod.mk.inj (Option.some.inj h)
    rw [List.flatMap_cons, quoteChar_of_unescape? hc, ih hscanned]
    rfl
  | case6 c text hquote hnewline hlast hescape ih =>
    obtain ⟨⟨value', rest'⟩, hscanned, h⟩ := Option.map_eq_some_iff.mp h
    obtain ⟨rfl, rfl⟩ := Prod.mk.inj h
    -- a backslash is followed by something or by nothing, and neither comes here
    have hbackslash : c ≠ '\\' := by
      rintro rfl
      cases text with
      | nil => exact hlast rfl rfl
      | cons escape text => exact hescape escape text rfl rfl
    have hplain : quoteChar c = [c] := by
      rw [quoteChar, if_neg hquote, if_neg hbackslash, if_neg hnewline]
    rw [List.flatMap_cons, hplain, List.singleton_append, List.cons_append, ← ih hscanned]

/-- The reader of literals accepts exactly the quoted strings, whatever follows them. -/
theorem literal?_eq_some_iff {text value rest : String} :
    literal? text = some (value, rest) ↔ text = quote value ++ rest := by
  constructor
  · intro h
    unfold literal? at h
    split at h
    · rename_i body htext
      obtain ⟨⟨chars, chars'⟩, hscanned, h⟩ := Option.map_eq_some_iff.mp h
      obtain ⟨rfl, rfl⟩ := Prod.mk.inj h
      apply String.toList_injective
      rw [htext, eq_of_literalBody? hscanned]
      simp [quote]
    · cases h
  · rintro rfl
    have hbody := literalBody?_flatMap_quoteChar value.toList rest.toList
    simp [literal?, quote, hbody]

/-! ## Property keys -/

/-- The name of the property key in front of a text, and the text that follows. -/
def key? (text : String) : Option (String × String) :=
  match Lexeme.next? text.toList with
  | some (.word name, rest) => some (name, String.ofList rest)
  | some (.str name, rest) => some (name, String.ofList rest)
  | _ => none

/-- A key is read back wherever the text goes on with something that does not lengthen a word. -/
theorem key?_propertyKey_append (name : String) {rest : String} (h : EndsWord rest.toList) :
    key? (propertyKey name ++ rest) = some (name, rest) := by
  unfold propertyKey
  split
  · rename_i hname
    rw [key?, String.toList_append, Lexeme.next?_word_append hname h]
    simp only [String.ofList_toList]
  · rw [key?, String.toList_append, Lexeme.next?_quote_append]
    simp only [String.ofList_toList]

theorem propertyKey_injective : Function.Injective propertyKey := by
  intro name name' h
  have hend : EndsWord "".toList := fun c hc => by cases hc
  have hname := key?_propertyKey_append name hend
  rw [h, key?_propertyKey_append name' hend] at hname
  exact (Prod.mk.inj (Option.some.inj hname)).1.symm

/-- Quoting can be undone in the middle of a text: a reader of literals finds the string and the text
after it, and accepts nothing that is not quoted this way.  A quoted string is on one line.

A property key is read back too, wherever the text goes on with something that does not lengthen a
word, so a key determines the name of its property whether it is bare or quoted. -/
theorem quoting_undone_in_context :
    (∀ value rest : String, literal? (quote value ++ rest) = some (value, rest)) ∧
    (∀ text value rest : String, literal? text = some (value, rest) → text = quote value ++ rest) ∧
    (∀ value : String, '\n' ∉ (quote value).toList) ∧
    (∀ name rest : String, EndsWord rest.toList →
      key? (propertyKey name ++ rest) = some (name, rest)) ∧
    ∀ name name' : String, propertyKey name = propertyKey name' → name = name' := by
  refine ⟨?_, ?_, ?_, ?_, ?_⟩
  · intro value rest
    exact literal?_eq_some_iff.mpr rfl
  · intro text value rest h
    exact literal?_eq_some_iff.mp h
  · intro value
    exact oneLine_quote value
  · intro name rest h
    exact key?_propertyKey_append name h
  · intro name name' h
    exact propertyKey_injective h

-- a backslash before the closing quote and a quote right after it, and a key that has to be quoted
theorem trailingBackslash_undone :
    literal? (quote "a\\" ++ "\"b") = some ("a\\", "\"b") ∧ isIdentifier "a\\" = false ∧
      key? (propertyKey "a\\" ++ ": b") = some ("a\\", ": b") := by
  have hend : EndsWord ": b".toList := by
    intro c hc
    obtain rfl := Option.some.inj hc
    decide
  obtain ⟨hliteral, -, -, hkey, -⟩ := quoting_undone_in_context
  exact ⟨hliteral _ _, by decide, hkey _ _ hend⟩

end AlgebraicData.Target
