import Mathlib
import AlgebraicData.Text.Position

/-!
# Bytes, lines and columns

A place in a text is where a front part of the text ends.  Either way of counting gives the front
part back:

* `takeBytes?_byteLength` — as many bytes as the front part has;
* `afterLines?_count` — as many lines as it has line breaks, and then the characters of its last
  line.
-/

namespace AlgebraicData.Text

/-! ## Bytes -/

theorem byteLength_cons (c : Char) (cs : List Char) :
    byteLength (c :: cs) = c.utf8Size + byteLength cs := rfl

theorem byteLength_append (front rest : List Char) :
    byteLength (front ++ rest) = byteLength front + byteLength rest := by
  induction front with
  | nil => simp [byteLength]
  | cons c front ih =>
    rw [List.cons_append, byteLength_cons, byteLength_cons, ih]
    omega

/-- Of two ends of a text, the one with fewer bytes is the one with fewer characters. -/
theorem byteLength_lt_iff_of_suffix {text rest rest' : List Char} (h : rest <:+ text)
    (h' : rest' <:+ text) :
    byteLength rest < byteLength rest' ↔ rest.length < rest'.length := by
  rcases List.suffix_or_suffix_of_suffix h h' with ⟨between, rfl⟩ | ⟨between, rfl⟩
  · cases between with
    | nil => simp
    | cons c between =>
      have hpos : 0 < c.utf8Size := c.utf8Size_pos
      rw [byteLength_append, byteLength_cons, List.length_append, List.length_cons]
      omega
  · rw [byteLength_append, List.length_append]
    omega

/-- The bytes are those that a string is kept in. -/
theorem byteLength_eq_utf8ByteSize (cs : List Char) :
    byteLength cs = (String.ofList cs).utf8ByteSize := by
  induction cs with
  | nil => rfl
  | cons c cs ih =>
    rw [byteLength_cons, ih, String.ofList_cons, String.utf8ByteSize_append,
      String.utf8ByteSize_singleton]

theorem takeBytes?_byteLength (front rest : List Char) :
    takeBytes? (byteLength front) (front ++ rest) = some front := by
  induction front with
  | nil => simp [byteLength, takeBytes?]
  | cons c front ih =>
    have hpos : 0 < c.utf8Size := c.utf8Size_pos
    have hbytes := byteLength_cons c front
    have hrest : byteLength (c :: front) - c.utf8Size = byteLength front := by omega
    rw [List.cons_append, takeBytes?, if_pos (by omega), hrest, ih]
    · rfl
    · omega

/-! ## Lines -/

/-- What follows the first `n` lines of a text, each with the line break that ends it. -/
def afterLines? : Nat → List Char → Option (List Char)
  | 0, text => some text
  | n + 1, text =>
    match text.dropWhile (· ≠ '\n') with
    | [] => none
    | _ :: rest => afterLines? n rest

/-- What stands in a text after its last line break. -/
def lastLine (text : List Char) : List Char :=
  (text.reverse.takeWhile (· ≠ '\n')).reverse

theorem newline_notMem_lastLine (text : List Char) : '\n' ∉ lastLine text := by
  intro hmem
  have htake := List.mem_takeWhile_imp (List.mem_reverse.mp hmem)
  simp at htake

theorem lastLine_eq_self {text : List Char} (h : '\n' ∉ text) : lastLine text = text := by
  have hall : ∀ c ∈ text.reverse, decide (c ≠ '\n') = true := by
    intro c hc
    have hne : c ≠ '\n' := fun heq => h (heq ▸ List.mem_reverse.mp hc)
    simpa using hne
  rw [lastLine, List.takeWhile_eq_self_iff.mpr hall, List.reverse_reverse]

/-- A character in front matters to the last line only if there is no line break behind it. -/
theorem lastLine_cons_of_mem {text : List Char} (h : '\n' ∈ text) (c : Char) :
    lastLine (c :: text) = lastLine text := by
  have hsome : ¬ ∀ x ∈ text.reverse, decide (x ≠ '\n') = true := by
    intro hall
    have hnewline := hall '\n' (List.mem_reverse.mpr h)
    simp at hnewline
  rw [lastLine, lastLine, List.reverse_cons, List.takeWhile_append, if_neg]
  intro hlength
  exact hsome (List.takeWhile_eq_self_iff.mp
    ((List.takeWhile_prefix _).eq_of_length hlength))

theorem lastLine_newline_cons (text : List Char) : lastLine ('\n' :: text) = lastLine text := by
  by_cases h : '\n' ∈ text
  · exact lastLine_cons_of_mem h '\n'
  · have hall := lastLine_eq_self h
    rw [hall, lastLine, List.reverse_cons, List.takeWhile_append]
    rw [lastLine] at hall
    have hlength := congrArg List.length hall
    rw [List.length_reverse] at hlength
    rw [if_pos (by rw [hlength, List.length_reverse])]
    simp

/-- After as many lines as a front part has line breaks, its last line stands in front. -/
theorem afterLines?_count (front rest : List Char) :
    afterLines? (front.count '\n') (front ++ rest) = some (lastLine front ++ rest) := by
  induction front with
  | nil => rfl
  | cons c front ih =>
    by_cases hc : c = '\n'
    · subst hc
      rw [List.count_cons_self, lastLine_newline_cons, ← ih]
      simp [afterLines?]
    · rw [List.count_cons_of_ne hc]
      by_cases hmem : '\n' ∈ front
      · -- the character is in the first line, which is dropped
        obtain ⟨n, hn⟩ : ∃ n, front.count '\n' = n + 1 :=
          ⟨front.count '\n' - 1, by have := List.count_pos_iff.mpr hmem; omega⟩
        rw [lastLine_cons_of_mem hmem, ← ih, hn]
        simp [afterLines?, hc]
      · -- there is one line only
        have hline : '\n' ∉ c :: front := by simpa [Ne.symm hc] using hmem
        rw [List.count_eq_zero.mpr hmem, lastLine_eq_self hline]
        rfl

end AlgebraicData.Text
