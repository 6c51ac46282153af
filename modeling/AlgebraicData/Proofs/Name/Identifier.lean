import Mathlib
import AlgebraicData.Name.Identifier

/-!
# Identifiers and reserved words

What the renaming of reserved words does to names: it keeps apart all names but a reserved word and
the same word with a trailing `_` (`bindingName_eq_iff`).
-/

namespace AlgebraicData

theorem isIdentifierRest_of_isDigit {c : Char} (h : c.isDigit = true) :
    isIdentifierRest c = true := by
  have hrange : 48 ≤ c.toNat ∧ c.toNat ≤ 57 := by
    simpa [Char.isDigit, UInt32.le_iff_toNat_le] using h
  have hdigits : ∀ n ≤ 57, 48 ≤ n → Text.inRanges Text.numberRanges n = true := by decide
  simp [isIdentifierRest, Text.isAlphanumeric, Text.isNumber, hdigits _ hrange.2 hrange.1]

/-! ## Reserved words -/

theorem isReserved_iff {name : String} : isReserved name = true ↔ name ∈ reservedWords :=
  List.contains_iff_mem

theorem isIdentifier_of_isReserved {word : String} (h : isReserved word = true) :
    isIdentifier word = true := by
  have hwords : ∀ word ∈ reservedWords, isIdentifier word = true := by decide
  exact hwords word (isReserved_iff.mp h)

/-- A reserved word with a trailing `_` is an identifier like any other. -/
theorem isIdentifier_renamed {word : String} (h : isReserved word = true) :
    isIdentifier (word ++ "_") = true ∧ isReserved (word ++ "_") = false := by
  have hwords : ∀ word ∈ reservedWords,
      isIdentifier (word ++ "_") = true ∧ isReserved (word ++ "_") = false := by
    decide
  exact hwords word (isReserved_iff.mp h)

theorem ne_renamed (word : String) : word ≠ word ++ "_" := by
  intro h
  have hlength := congrArg String.length h
  simp at hlength

/-- Two names are bound alike only if one is the renamed form of the other. -/
theorem bindingName_eq_iff {a b : String} :
    bindingName a = bindingName b ↔
      a = b ∨ (isReserved a = true ∧ b = a ++ "_") ∨ (isReserved b = true ∧ a = b ++ "_") := by
  -- a renamed word is not renamed again
  have hrenamed : ∀ {x y : String}, isReserved x = true → isReserved y = true → y ≠ x ++ "_" := by
    rintro x _ hx hy rfl
    rw [(isIdentifier_renamed hx).2] at hy
    cases hy
  simp only [bindingName]
  cases ha : isReserved a with
  | true =>
    cases hb : isReserved b with
    | true => simp [hrenamed ha hb, hrenamed hb ha]
    | false =>
      have hne : a ≠ b := by
        rintro rfl
        rw [ha] at hb
        cases hb
      simp [hne, eq_comm]
  | false =>
    cases hb : isReserved b with
    | true =>
      have hne : a ≠ b := by
        rintro rfl
        rw [ha] at hb
        cases hb
      simp [hne]
    | false => simp

end AlgebraicData
