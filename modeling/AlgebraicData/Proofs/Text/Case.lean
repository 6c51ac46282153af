import Mathlib
import AlgebraicData.Text.Case
import AlgebraicData.Text.Number

/-!
# What a change of case does to letters

The tables of letter case and the table of letters come from different sources, and names need them
to agree: only letters have another case, and that case is spelled with letters again.

* The tables are checked letter by letter, by evaluation.  For that the letters are put together in
  one number (`letterBits`), where looking one up takes no search.
* Two kinds of letters are exceptions, because their other case is spelled with a mark that is no
  letter: `İ`, whose small form is `i` with a dot above, and the small letters in `splitCapitals`.
-/

namespace AlgebraicData.Text

/-! ## Ranges -/

/-- The code points from `first` to `last`, as the bits of a number. -/
def bitsBetween (first last : Nat) : Nat :=
  (2 ^ (last + 1 - first) - 1) <<< first

/-- The code points in the ranges, as the bits of a number. -/
def bits : List (Nat × Nat) → Nat
  | [] => 0
  | range :: ranges => bitsBetween range.1 range.2 ||| bits ranges

theorem testBit_bitsBetween_iff {first last n : Nat} :
    (bitsBetween first last).testBit n = true ↔ first ≤ n ∧ n ≤ last := by
  rw [bitsBetween, Nat.testBit_shiftLeft, Nat.testBit_two_pow_sub_one, Bool.and_eq_true,
    decide_eq_true_eq, decide_eq_true_eq]
  omega

theorem testBit_bits_iff {ranges : List (Nat × Nat)} {n : Nat} :
    (bits ranges).testBit n = true ↔ ∃ range ∈ ranges, range.1 ≤ n ∧ n ≤ range.2 := by
  induction ranges with
  | nil => simp [bits]
  | cons range ranges ih =>
    rw [bits, Nat.testBit_or, Bool.or_eq_true, testBit_bitsBetween_iff, ih]
    simp only [List.mem_cons, exists_eq_or_imp]

/-- In increasing ranges the search does not end too early. -/
theorem inRanges_of_mem {ranges : List (Nat × Nat)}
    (hranges : ranges.Pairwise fun range range' => range.1 ≤ range'.1) {range : Nat × Nat}
    (hmem : range ∈ ranges) {n : Nat} (hlo : range.1 ≤ n) (hhi : n ≤ range.2) :
    inRanges ranges n = true := by
  induction ranges with
  | nil => cases hmem
  | cons first ranges ih =>
    obtain ⟨hfirst, hrest⟩ := List.pairwise_cons.mp hranges
    rcases List.mem_cons.mp hmem with rfl | hmem
    · simp [inRanges, hlo, hhi]
    · simp [inRanges, (hfirst range hmem).trans hlo, ih hrest hmem]

theorem exists_of_inRanges {ranges : List (Nat × Nat)} {n : Nat} (h : inRanges ranges n = true) :
    ∃ range ∈ ranges, range.1 ≤ n ∧ n ≤ range.2 := by
  induction ranges with
  | nil => cases h
  | cons range ranges ih =>
    simp only [inRanges, Bool.and_eq_true, Bool.or_eq_true, decide_eq_true_eq] at h
    obtain ⟨hlo, hhi | hrest⟩ := h
    · exact ⟨range, List.mem_cons_self, hlo, hhi⟩
    · obtain ⟨range', hmem, hin⟩ := ih hrest
      exact ⟨range', List.mem_cons_of_mem _ hmem, hin⟩

/-- The ranges of letters increase, and none reaches into the surrogates or past the last code
point. -/
theorem alphabeticRanges_increase :
    (alphabeticRanges.IsChain fun range range' => range.1 ≤ range'.1) ∧
      alphabeticRanges.all (fun range => Nat.ble range.2 0xD7FF ||
        Nat.ble 0xE000 range.1 && Nat.ble range.2 0x10FFFF) = true := by
  decide +kernel

/-- All letters, as the bits of a number. -/
def letterBits : Nat :=
  bits alphabeticRanges

theorem inRanges_of_testBit {n : Nat} (h : letterBits.testBit n = true) :
    inRanges alphabeticRanges n = true := by
  obtain ⟨range, hmem, hlo, hhi⟩ := testBit_bits_iff.mp h
  have hincrease := List.isChain_iff_pairwise.mp alphabeticRanges_increase.1
  exact inRanges_of_mem hincrease hmem hlo hhi

/-- Letters are characters. -/
theorem isAlphabetic_ofNat {n : Nat} (h : inRanges alphabeticRanges n = true) :
    isAlphabetic (Char.ofNat n) = true := by
  obtain ⟨range, hmem, hlo, hhi⟩ := exists_of_inRanges h
  have hrange := List.all_eq_true.mp alphabeticRanges_increase.2 range hmem
  simp only [Bool.or_eq_true, Bool.and_eq_true, Nat.ble_eq] at hrange
  have hvalid : n.isValidChar := by
    unfold Nat.isValidChar
    omega
  have hcode : (Char.ofNat n).toNat = n := by rw [Char.toNat_ofNat, if_pos hvalid]
  unfold isAlphabetic
  rw [hcode]
  exact h

/-! ## Runs -/

namespace CaseRun

/-- The letters of the run. -/
def letters (run : CaseRun) : List Nat :=
  (List.range ((run.last - run.first) / run.step + 1)).map fun k => run.first + run.step * k

/-- Whether the run takes letters to letters. -/
def keepsLetters (run : CaseRun) : Bool :=
  run.letters.all fun n => letterBits.testBit n && letterBits.testBit (n + run.shift).toNat

variable {run : CaseRun} {n m : Nat}

theorem bounds_of_partner (h : run.partner? n = some m) :
    run.first ≤ n ∧ n ≤ run.last ∧ (n - run.first) % run.step = 0 ∧ m = (n + run.shift).toNat := by
  unfold partner? at h
  split at h
  · rename_i hin
    simp only [Bool.and_eq_true, decide_eq_true_eq, beq_iff_eq] at hin
    exact ⟨hin.1.1, hin.1.2, hin.2, (Option.some.inj h).symm⟩
  · cases h

theorem mem_letters (hfirst : run.first ≤ n) (hlast : n ≤ run.last)
    (hstep : (n - run.first) % run.step = 0) : n ∈ run.letters := by
  refine List.mem_map.mpr ⟨(n - run.first) / run.step, List.mem_range.mpr ?_, ?_⟩
  · have hle : (n - run.first) / run.step ≤ (run.last - run.first) / run.step :=
      Nat.div_le_div_right (Nat.sub_le_sub_right hlast _)
    omega
  · rw [Nat.mul_div_cancel' (Nat.dvd_of_mod_eq_zero hstep)]
    omega

/-- Both partners are letters. -/
theorem inRanges_of_partner (hrun : run.keepsLetters = true) (h : run.partner? n = some m) :
    inRanges alphabeticRanges n = true ∧ inRanges alphabeticRanges m = true := by
  obtain ⟨hfirst, hlast, hstep, rfl⟩ := bounds_of_partner h
  have hletter := List.all_eq_true.mp hrun n (mem_letters hfirst hlast hstep)
  rw [Bool.and_eq_true] at hletter
  exact ⟨inRanges_of_testBit hletter.1, inRanges_of_testBit hletter.2⟩

end CaseRun

/-! ## Mappings -/

section Mapping

variable {specials : List (Nat × List Nat)} {runs : List CaseRun} {c : Char}

/-- Only letters have another case. -/
theorem mapCase_eq_self (hspecials : ∀ entry ∈ specials, inRanges alphabeticRanges entry.1 = true)
    (hruns : runs.all (·.keepsLetters) = true) (hc : isAlphabetic c = false) :
    mapCase specials runs c = [c] := by
  have hspecial : specials.lookup c.toNat = none := by
    refine List.lookup_eq_none_iff.mpr fun entry hmem => ?_
    by_contra heq
    have hletter := hspecials entry hmem
    rw [isAlphabetic] at hc
    simp_all
  have hrun : runs.findSome? (·.partner? c.toNat) = none := by
    refine List.findSome?_eq_none_iff.mpr fun run hmem => ?_
    cases hpartner : run.partner? c.toNat with
    | none => rfl
    | some m =>
      have hletter := (CaseRun.inRanges_of_partner (List.all_eq_true.mp hruns run hmem) hpartner).1
      rw [isAlphabetic, hletter] at hc
      cases hc
  rw [mapCase, hspecial, hrun]

/-- A letter without a spelling of its own goes to one letter. -/
theorem exists_mapCase_eq (hruns : runs.all (·.keepsLetters) = true)
    (hc : isAlphabetic c = true) (hspecial : specials.lookup c.toNat = none) :
    ∃ d, mapCase specials runs c = [d] ∧ isAlphabetic d = true := by
  rw [mapCase, hspecial]
  cases hrun : runs.findSome? (·.partner? c.toNat) with
  | none => exact ⟨c, rfl, hc⟩
  | some m =>
    obtain ⟨run, hmem, hpartner⟩ := List.exists_of_findSome?_eq_some hrun
    have hletter := (CaseRun.inRanges_of_partner (List.all_eq_true.mp hruns run hmem) hpartner).2
    exact ⟨Char.ofNat m, rfl, isAlphabetic_ofNat hletter⟩

/-- No character has a line break in its other case but the line break itself. -/
theorem newline_notMem_mapCase (hspecials : ∀ entry ∈ specials, 0xA ∉ entry.2)
    (hruns : runs.all (·.keepsLetters) = true) (hc : c ≠ '\n') :
    '\n' ∉ mapCase specials runs c := by
  have hcode : ∀ n, Char.ofNat n = '\n' → n = 0xA := by
    intro n h
    have hnat := congrArg Char.toNat h
    rw [Char.toNat_ofNat] at hnat
    split at hnat
    · exact hnat
    · cases hnat
  unfold mapCase
  split
  · rename_i spelling hspecial
    obtain ⟨before, after, hsplit, -⟩ := List.lookup_eq_some_iff.mp hspecial
    have hmem : (c.toNat, spelling) ∈ specials := by
      rw [hsplit]
      exact List.mem_append_right _ List.mem_cons_self
    intro hnewline
    obtain ⟨n, hn, heq⟩ := List.mem_map.mp hnewline
    exact hspecials _ hmem (hcode n heq ▸ hn)
  · split
    · -- a partner is a letter
      rename_i m hrun
      obtain ⟨run, hmem, hpartner⟩ := List.exists_of_findSome?_eq_some hrun
      have hletter :=
        (CaseRun.inRanges_of_partner (List.all_eq_true.mp hruns run hmem) hpartner).2
      intro hnewline
      rw [hcode m (List.mem_singleton.mp hnewline).symm] at hletter
      exact absurd hletter (by decide)
    · exact fun hnewline => hc (List.mem_singleton.mp hnewline).symm

end Mapping

theorem all_keepsLetters :
    lowerRuns.all (·.keepsLetters) = true ∧ upperRuns.all (·.keepsLetters) = true := by
  decide +kernel

/-! ## Small letters -/

theorem toLower_eq_self {c : Char} (hc : isAlphabetic c = false) : toLower c = [c] := by
  refine mapCase_eq_self (List.forall_mem_singleton.mpr ?_) all_keepsLetters.1 hc
  decide

/-- All letters but one have a small form of one letter. -/
theorem exists_toLower_eq {c : Char} (hc : isAlphabetic c = true) (hdot : c ≠ 'İ') :
    ∃ d, toLower c = [d] ∧ isAlphabetic d = true := by
  refine exists_mapCase_eq all_keepsLetters.1 hc ?_
  have hcode : c.toNat ≠ 0x130 := fun heq => hdot (Char.toNat_inj.mp heq)
  exact List.lookup_eq_none_iff.mpr (List.forall_mem_singleton.mpr (by simpa using hcode))

theorem toLower_dotted : toLower 'İ' = ['i', '\u0307'] := by
  decide

/-- No small form has one of the capitals from `A` to `Z` in it. -/
theorem capital_notMem_toLower {c d : Char} (h : d ∈ toLower c) :
    ¬ (0x41 ≤ d.toNat ∧ d.toNat ≤ 0x5A) := by
  have hcode : ∀ n > 0x5A, ¬ (0x41 ≤ (Char.ofNat n).toNat ∧ (Char.ofNat n).toNat ≤ 0x5A) := by
    intro n hn
    rw [Char.toNat_ofNat]
    split <;> omega
  unfold toLower mapCase at h
  split at h
  · -- the small form of `İ`
    rename_i spelling hspecial
    obtain ⟨before, after, hsplit, -⟩ := List.lookup_eq_some_iff.mp hspecial
    have hmem : (c.toNat, spelling) ∈ lowerSpecials := by
      rw [hsplit]
      exact List.mem_append_right _ List.mem_cons_self
    obtain ⟨-, rfl⟩ := Prod.mk.inj (List.mem_singleton.mp hmem)
    obtain ⟨n, hn, rfl⟩ := List.mem_map.mp h
    exact hcode n (by revert n; decide)
  · split at h
    · rename_i m hrun
      obtain rfl := List.mem_singleton.mp h
      obtain ⟨run, hmem, hpartner⟩ := List.exists_of_findSome?_eq_some hrun
      have hruns : lowerRuns.all (fun run => decide (0x5A < run.first + run.shift)) = true := by
        decide
      have hfirst := of_decide_eq_true (List.all_eq_true.mp hruns run hmem)
      obtain ⟨hle, -, -, rfl⟩ := CaseRun.bounds_of_partner hpartner
      exact hcode _ (by omega)
    · -- a capital would have a partner in the first run
      rename_i hnone
      obtain rfl := List.mem_singleton.mp h
      have hfirst := List.findSome?_eq_none_iff.mp hnone ⟨0x41, 0x5A, 1, 32⟩ List.mem_cons_self
      rintro ⟨hlo, hhi⟩
      simp [CaseRun.partner?, hlo, hhi, Nat.mod_one] at hfirst

theorem newline_notMem_toLower {c : Char} (hc : c ≠ '\n') : '\n' ∉ toLower c :=
  newline_notMem_mapCase (by decide) all_keepsLetters.1 hc

theorem toLower_ne_nil (c : Char) : toLower c ≠ [] := by
  cases hc : isAlphabetic c with
  | false => simp [toLower_eq_self hc]
  | true =>
    by_cases hdot : c = 'İ'
    · simp [hdot, toLower_dotted]
    · obtain ⟨d, hd, -⟩ := exists_toLower_eq hc hdot
      simp [hd]

/-! ## Capital letters -/

/-- The code points of the small letters whose capital form is spelled with a mark that is no
letter, such as `ǰ`. -/
def splitCapitals : List Nat := [
  0x1F0, 0x390, 0x3B0, 0x1E96, 0x1E97, 0x1E98, 0x1E99, 0x1F50, 0x1F52, 0x1F54, 0x1F56, 0x1FB6,
  0x1FB7, 0x1FC6, 0x1FC7, 0x1FD2, 0x1FD3, 0x1FD6, 0x1FD7, 0x1FE2, 0x1FE3, 0x1FE4, 0x1FE6, 0x1FE7,
  0x1FF6, 0x1FF7]

/-- Letters with a spelling of their own, and what they are spelled with unless they are split. -/
theorem inRanges_of_mem_upperSpecials {entry : Nat × List Nat} (h : entry ∈ upperSpecials) :
    inRanges alphabeticRanges entry.1 = true ∧
      (entry.1 ∉ splitCapitals → ∀ n ∈ entry.2, inRanges alphabeticRanges n = true) := by
  have hspecials : upperSpecials.all (fun entry => letterBits.testBit entry.1 &&
      (splitCapitals.contains entry.1 || entry.2.all fun n => letterBits.testBit n)) = true := by
    decide +kernel
  have hentry := List.all_eq_true.mp hspecials entry h
  simp only [Bool.and_eq_true, Bool.or_eq_true, List.contains_iff_mem, List.all_eq_true] at hentry
  refine ⟨inRanges_of_testBit hentry.1, fun hsplit n hn => ?_⟩
  exact inRanges_of_testBit (hentry.2.resolve_left hsplit n hn)

theorem toUpper_eq_self {c : Char} (hc : isAlphabetic c = false) : toUpper c = [c] :=
  mapCase_eq_self (fun _ h => (inRanges_of_mem_upperSpecials h).1) all_keepsLetters.2 hc

theorem newline_notMem_toUpper {c : Char} (hc : c ≠ '\n') : '\n' ∉ toUpper c := by
  have hspecials : upperSpecials.all (fun entry => !entry.2.contains 0xA) = true := by
    decide
  refine newline_notMem_mapCase (fun entry hmem => ?_) all_keepsLetters.2 hc
  simpa using List.all_eq_true.mp hspecials entry hmem

/-- The capital form of a letter is spelled with letters. -/
theorem isAlphabetic_of_mem_toUpper {c : Char} (hc : isAlphabetic c = true)
    (hsplit : c.toNat ∉ splitCapitals) : ∀ d ∈ toUpper c, isAlphabetic d = true := by
  cases hspecial : upperSpecials.lookup c.toNat with
  | none =>
    obtain ⟨d, heq, hd⟩ := exists_mapCase_eq all_keepsLetters.2 hc hspecial
    rw [toUpper, heq]
    exact List.forall_mem_singleton.mpr hd
  | some spelling =>
    obtain ⟨before, after, hsplits, -⟩ := List.lookup_eq_some_iff.mp hspecial
    have hmem : (c.toNat, spelling) ∈ upperSpecials := by
      rw [hsplits]
      exact List.mem_append_right _ List.mem_cons_self
    have hletters := (inRanges_of_mem_upperSpecials hmem).2 hsplit
    rw [toUpper, mapCase, hspecial]
    exact List.forall_mem_map.mpr fun n hn => isAlphabetic_ofNat (hletters n hn)

/-- The mark in the capital form of a split letter. -/
theorem exists_mem_toUpper_of_mem_splitCapitals {c : Char} (h : c.toNat ∈ splitCapitals) :
    ∃ d ∈ toUpper c, isAlphanumeric d = false ∧ d ≠ '_' ∧ d ≠ '$' := by
  have hmarks : splitCapitals.all (fun n => (toUpper (Char.ofNat n)).any fun d =>
      !isAlphanumeric d && d != '_' && d != '$') = true := by
    decide +kernel
  have hmark := List.all_eq_true.mp hmarks _ h
  rw [Char.ofNat_toNat] at hmark
  obtain ⟨d, hmem, hd⟩ := List.any_eq_true.mp hmark
  simp only [Bool.and_eq_true, Bool.not_eq_true', bne_iff_ne] at hd
  exact ⟨d, hmem, hd.1.1, hd.1.2, hd.2⟩

end AlgebraicData.Text
