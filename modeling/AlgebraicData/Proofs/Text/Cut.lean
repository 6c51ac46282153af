import Mathlib

/-!
# Cutting a text where it was joined

Texts joined with a separator can be had back by splitting at the separator, if none of them has the
separator in it, or an end of its own from which the separator could begin (`split_intercalate`).
Where the separator is a blank line, texts without empty lines are such texts (`Solid.uncut`).
-/

namespace AlgebraicData.Text

open String (Slice)
open String.Slice.Pattern.Model

/-- No separator begins inside the text, even where one follows it. -/
def Uncut (separator text : String) : Prop :=
  ∀ front back rest rest', text = front ++ back → back ≠ "" →
    back ++ (separator ++ rest) ≠ separator ++ rest'

variable {separator : String} {s : Slice}

/-- The separator matches nowhere between the ends of a text that it follows. -/
theorem Uncut.not_matchesAt {text before after : String} (h : Uncut separator text)
    {start stop : s.Pos} (hstart : start.Splits before (text ++ after))
    (hstop : stop.Splits (before ++ text) after)
    (hafter : after = "" ∨ ∃ rest, after = separator ++ rest) {p : s.Pos} (hle : start ≤ p)
    (hlt : p < stop) : ¬ MatchesAt separator p := by
  intro hmatch
  obtain ⟨front', tail, hp⟩ := ForwardStringSearcher.matchesAt_iff_splits.mp hmatch
  obtain ⟨front, rfl, -⟩ := (hstart.le_iff_exists_eq_append hp).mp hle
  obtain ⟨back, hback, heq, htail⟩ := (hp.lt_iff_exists_eq_append hstop).mp hlt
  have htext : text = front ++ back := by
    rw [String.append_assoc] at heq
    exact (String.append_right_inj before).mp heq
  rcases hafter with rfl | ⟨rest, rfl⟩
  · refine h front back "" (tail ++ separator) htext hback ?_
    rw [String.append_empty] at htail ⊢
    rw [← htail, String.append_assoc]
  · exact h front back rest tail htext hback htail.symm

theorem copy_subslice {before text after : String} {start stop : s.Pos} (hle : start ≤ stop)
    (hstart : start.Splits before (text ++ after)) (hstop : stop.Splits (before ++ text) after) :
    (s.subslice start stop hle).toSlice.copy = text := by
  obtain ⟨_, hcopy⟩ := Slice.copy_slice_eq_iff_splits.mpr ⟨before, after, hstart, hstop⟩
  rw [Slice.toSlice_subslice]
  exact hcopy

/-- Splitting from a place on gives back the texts that are joined there. -/
theorem map_copy_split [StrictPatternModel separator] {text : String} {texts : List String}
    (h : ∀ t ∈ text :: texts, Uncut separator t) {before : String} {p : s.Pos}
    (hp : p.Splits before (separator.intercalate (text :: texts))) :
    (String.Slice.Pattern.Model.split separator p p (Std.le_refl p)).map (·.toSlice.copy) =
      text :: texts := by
  obtain ⟨htext, htexts⟩ := List.forall_mem_cons.mp h
  induction texts generalizing text before p with
  | nil =>
    rw [String.intercalate_singleton] at hp
    have hstart : p.Splits before (text ++ "") := by rwa [String.append_empty]
    have hstop : s.endPos.Splits (before ++ text) "" := by
      rw [← hp.eq_append]
      exact s.splits_endPos
    rw [split_eq_of_not_matchesAt s.endPos (Slice.Pos.le_endPos p)
      fun q => htext.not_matchesAt hstart hstop (.inl rfl), split_endPos, List.map_singleton,
      copy_subslice _ hstart hstop]
  | cons next texts ih =>
    rw [String.intercalate_cons_cons, String.append_assoc] at hp
    -- the text ends where the separator begins, and the others are joined where it ends
    have hstop := hp.splits_rotateRight
    have hnext := hstop.splits_rotateRight
    have hle : p ≤ hp.rotateRight := (hp.le_iff_exists_eq_append hstop).mpr ⟨text, rfl, rfl⟩
    have hmatch : IsLongestMatchAt separator hp.rotateRight hstop.rotateRight :=
      ForwardStringSearcher.isLongestMatchAt_iff_splits.mpr ⟨_, _, hstop, hnext⟩
    obtain ⟨htext', htexts'⟩ := List.forall_mem_cons.mp htexts
    rw [split_eq_of_not_matchesAt hp.rotateRight hle
      fun q => htext.not_matchesAt hp hstop (.inr ⟨_, rfl⟩), split_eq_of_isLongestMatchAt hmatch,
      List.map_cons, copy_subslice _ hp hstop, ih htexts hnext htext' htexts']

/-- Texts joined with a separator are had back by splitting at it. -/
theorem split_intercalate (hne : separator ≠ "") {texts : List String} (htexts : texts ≠ [])
    (h : ∀ text ∈ texts, Uncut separator text) :
    ((separator.intercalate texts).split separator).toList.map (·.copy) = texts := by
  have := ForwardStringSearcher.strictPatternModel hne
  have := ForwardStringSearcher.lawfulToForwardSearcherModel hne
  obtain ⟨text, texts, rfl⟩ := List.exists_cons_of_ne_nil htexts
  rw [String.split_eq_split_toSlice, Slice.toList_split_eq_splitToSubslice,
    String.Slice.Pattern.toList_splitToSubslice_eq_modelSplit, List.map_map]
  have hstart := (separator.intercalate (text :: texts)).toSlice.splits_startPos
  rw [String.copy_toSlice] at hstart
  exact map_copy_split h hstart

/-! ## Lines -/

/-- The text has no line break. -/
def OneLine (text : String) : Prop :=
  '\n' ∉ text.toList

instance (text : String) : Decidable (OneLine text) :=
  inferInstanceAs (Decidable (_ ∉ _))

theorem oneLine_ofList_iff {chars : List Char} : OneLine (String.ofList chars) ↔ '\n' ∉ chars := by
  rw [OneLine, String.toList_ofList]

theorem oneLine_append_iff {text text' : String} :
    OneLine (text ++ text') ↔ OneLine text ∧ OneLine text' := by
  rw [OneLine, String.toList_append, List.mem_append, not_or]
  exact Iff.rfl

theorem oneLine_intercalate {texts : List String} (hseparator : OneLine separator)
    (h : ∀ text ∈ texts, OneLine text) : OneLine (separator.intercalate texts) := by
  induction texts with
  | nil => exact (by decide : OneLine "")
  | cons text texts ih =>
    obtain ⟨htext, htexts⟩ := List.forall_mem_cons.mp h
    cases texts with
    | nil => rwa [String.intercalate_singleton]
    | cons next texts =>
      rw [String.intercalate_cons_cons]
      exact oneLine_append_iff.mpr ⟨oneLine_append_iff.mpr ⟨htext, hseparator⟩, ih htexts⟩

/-- The text is not empty, and neither is any line of it. -/
structure Solid (text : List Char) : Prop where
  ne_nil : text ≠ []
  head : text.head? ≠ some '\n'
  last : text.getLast? ≠ some '\n'
  inside : text.IsChain fun c d => c = '\n' → d ≠ '\n'

theorem solid_of_newline_notMem {line : List Char} (hne : line ≠ []) (h : '\n' ∉ line) :
    Solid line where
  ne_nil := hne
  head hhead := h (List.mem_of_head? hhead)
  last hlast := h (List.mem_of_getLast? hlast)
  inside := by
    refine List.isChain_iff_forall_rel_of_append_cons_cons.mpr ?_
    rintro _ d before after rfl rfl
    exact absurd (List.mem_append_right before List.mem_cons_self) h

theorem Solid.append_newline {text text' : List Char} (h : Solid text) (h' : Solid text') :
    Solid (text ++ '\n' :: text') where
  ne_nil := List.append_ne_nil_of_left_ne_nil h.ne_nil _
  head := by
    rw [List.head?_append_of_ne_nil _ h.ne_nil]
    exact h.head
  last := by
    rw [List.getLast?_append_cons, List.getLast?_cons_of_ne_nil h'.ne_nil]
    exact h'.last
  inside := by
    refine List.isChain_append.mpr ⟨h.inside, List.isChain_cons.mpr ⟨?_, h'.inside⟩, ?_⟩
    · rintro d hd - rfl
      exact h'.head hd
    · rintro c hc _ - rfl
      exact absurd hc h.last

/-- Lines that are not empty make up a text without empty lines. -/
theorem solid_intercalate {lines : List (List Char)} (hlines : lines ≠ [])
    (h : ∀ line ∈ lines, line ≠ [] ∧ '\n' ∉ line) : Solid (['\n'].intercalate lines) := by
  induction lines with
  | nil => exact absurd rfl hlines
  | cons line lines ih =>
    obtain ⟨⟨hne, hline⟩, hrest⟩ := List.forall_mem_cons.mp h
    cases lines with
    | nil =>
      rw [List.intercalate_singleton]
      exact solid_of_newline_notMem hne hline
    | cons next lines =>
      rw [List.intercalate_cons_cons, List.append_assoc]
      exact (solid_of_newline_notMem hne hline).append_newline (ih (List.cons_ne_nil _ _) hrest)

theorem Solid.noBlankLine {text : List Char} (h : Solid text) : ¬ ['\n', '\n'] <:+: text := by
  rintro ⟨before, after, rfl⟩
  have hchain := h.inside
  rw [List.append_assoc] at hchain
  exact (List.isChain_append_cons_cons.mp hchain).2.1 rfl rfl

/-- A text without empty lines is not cut at blank lines. -/
theorem Solid.uncut {text : String} (h : Solid text.toList) : Uncut "\n\n" text := by
  intro front back rest rest' htext hback heq
  have hseparator : "\n\n".toList = ['\n', '\n'] := rfl
  have hchars := congrArg String.toList heq
  rw [String.toList_append, String.toList_append, String.toList_append, hseparator] at hchars
  have htext' : text.toList = front.toList ++ back.toList := by rw [htext, String.toList_append]
  cases hback' : back.toList with
  | nil => exact hback (String.toList_eq_nil_iff.mp hback')
  | cons c more =>
    rw [hback'] at hchars htext'
    obtain ⟨rfl, hmore⟩ := List.cons.inj hchars
    cases more with
    | nil =>
      -- the first character of the separator would end the text
      exact h.last (by rw [htext', List.getLast?_concat])
    | cons d more =>
      obtain ⟨rfl, -⟩ := List.cons.inj hmore
      exact h.noBlankLine ⟨front.toList, more, by rw [htext', List.append_assoc]; rfl⟩

end AlgebraicData.Text
