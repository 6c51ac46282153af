import AlgebraicData.Name.Casing
import AlgebraicData.Proofs.Name.Identifier
import AlgebraicData.Proofs.Name.Scope
import AlgebraicData.Proofs.Text.Case

/-!
# Which names can be bound

A name can be bound if it is an identifier and not a reserved word.  Names are made from others by
repair, by a change of case, by something put in front, by renaming reserved words and by numbers at
the end.  Each step is followed here on its own:

* repair always gives an identifier (`isIdentifier_identifierName`);
* a change of case keeps identifiers, but for a first letter whose other case is spelled with a mark
  (`isIdentifier_lowerFirst_iff`, `forall_mem_upperFirst_iff`);
* numbers at the end change nothing, and no reserved word has any (`isBindable_fresh_iff`).
-/

namespace AlgebraicData

/-- The name is an identifier and not a reserved word. -/
def IsBindable (name : String) : Prop :=
  isIdentifier name = true ∧ isReserved name = false

instance : DecidablePred IsBindable :=
  fun name => inferInstanceAs (Decidable (isIdentifier name = true ∧ isReserved name = false))

/-! ## Spelling -/

theorem isIdentifierRest_of_isAlphabetic {c : Char} (h : Text.isAlphabetic c = true) :
    isIdentifierRest c = true := by
  simp [isIdentifierRest, Text.isAlphanumeric, h]

theorem isIdentifierRest_of_first {c : Char} (h : isIdentifierFirst c = true) :
    isIdentifierRest c = true := by
  simp only [isIdentifierFirst, isIdentifierRest, Text.isAlphanumeric, Bool.or_eq_true] at h ⊢
  tauto

theorem all_isIdentifierRest {cs : List Char} (h : spellsIdentifier cs = true) :
    ∀ c ∈ cs, isIdentifierRest c = true := by
  cases cs with
  | nil => exact List.forall_mem_nil _
  | cons first rest =>
    simp only [spellsIdentifier, Bool.and_eq_true, List.all_eq_true] at h
    exact List.forall_mem_cons.mpr ⟨isIdentifierRest_of_first h.1, h.2⟩

/-- Once the front spells an identifier, what follows need not begin one. -/
theorem spellsIdentifier_append {front : List Char} (h : spellsIdentifier front = true)
    (more : List Char) : spellsIdentifier (front ++ more) = more.all isIdentifierRest := by
  cases front with
  | nil => cases h
  | cons first rest =>
    simp only [spellsIdentifier, Bool.and_eq_true] at h
    simp [spellsIdentifier, h.1, h.2]

theorem isIdentifier_append_iff {front : String} (h : isIdentifier front = true) {name : String} :
    isIdentifier (front ++ name) = true ↔ ∀ c ∈ name.toList, isIdentifierRest c = true := by
  rw [isIdentifier, String.toList_append, spellsIdentifier_append h, List.all_eq_true]

/-! ## Repair -/

theorem isIdentifierRest_repairChar (c : Char) : isIdentifierRest (repairChar c) = true := by
  unfold repairChar
  split
  · rename_i hc
    simp only [isIdentifierRest, Bool.or_eq_true] at hc ⊢
    tauto
  · decide

/-- A repaired name is an identifier. -/
theorem isIdentifier_identifierName (name : String) : isIdentifier (identifierName name) = true := by
  unfold identifierName
  split
  · assumption
  · have hall : ∀ c ∈ name.toList.map repairChar, isIdentifierRest c = true :=
      List.forall_mem_map.mpr fun c _ => isIdentifierRest_repairChar c
    rw [isIdentifier, String.toList_ofList]
    unfold guardFirst
    split
    · decide
    · rename_i first rest hchars
      rw [hchars, List.forall_mem_cons] at hall
      split
      · rename_i hfirst
        simpa [spellsIdentifier, hfirst] using hall.2
      · have hunderscore : isIdentifierFirst '_' = true := by decide
        simpa [spellsIdentifier, hunderscore] using hall

/-- Repair keeps a first letter, and puts none there. -/
theorem head?_identifierName_eq_iff {name : String} {letter : Char}
    (hletter : Text.isAlphabetic letter = true) :
    (identifierName name).toList.head? = some letter ↔ name.toList.head? = some letter := by
  have hne : letter ≠ '_' := by
    rintro rfl
    exact absurd hletter (by decide)
  -- letters are not repaired, and what is repaired becomes no letter
  have hrepair : ∀ c, repairChar c = letter ↔ c = letter := by
    intro c
    unfold repairChar
    split
    · rfl
    · rename_i hc
      refine ⟨fun heq => absurd heq.symm hne, ?_⟩
      rintro rfl
      simp [Text.isAlphanumeric, hletter] at hc
  unfold identifierName
  split
  · rfl
  · rw [String.toList_ofList]
    cases name.toList with
    | nil => simp [guardFirst, hne.symm]
    | cons first rest =>
      simp only [List.map_cons, guardFirst, List.head?_cons, Option.some.injEq]
      split
      · simp [hrepair]
      · rename_i hfirst
        simp only [List.head?_cons, Option.some.injEq, hne.symm, false_iff]
        rintro rfl
        rw [(hrepair _).mpr rfl] at hfirst
        simp [isIdentifierFirst, hletter] at hfirst

/-! ## Case -/

/-- What stands in front after a change to a small first letter. -/
theorem exists_head?_lowerFirst {name : String} (hne : name.toList ≠ []) :
    ∃ c first, first ∈ Text.toLower c ∧ (lowerFirst name).toList.head? = some first := by
  obtain ⟨c, rest, hname⟩ := List.exists_cons_of_ne_nil hne
  obtain ⟨first, more, hlower⟩ := List.exists_cons_of_ne_nil (Text.toLower_ne_nil c)
  refine ⟨c, first, hlower ▸ List.mem_cons_self, ?_⟩
  rw [lowerFirst, mapFirst, hname]
  simp only [String.toList_ofList, hlower, List.cons_append, List.head?_cons]

/-- A small first letter keeps an identifier, unless it is spelled with a dot above. -/
theorem isIdentifier_lowerFirst_iff {name : String} :
    isIdentifier (lowerFirst name) = true ↔
      isIdentifier name = true ∧ name.toList.head? ≠ some 'İ' := by
  unfold isIdentifier lowerFirst mapFirst
  cases name.toList with
  | nil => simp [spellsIdentifier]
  | cons first rest =>
    simp only [String.toList_ofList, List.head?_cons, ne_eq, Option.some.injEq]
    by_cases hdot : first = 'İ'
    · have hmark : isIdentifierRest '\u0307' = false := by decide
      simp [hdot, Text.toLower_dotted, spellsIdentifier, hmark]
    · rw [and_iff_left hdot]
      cases hletter : Text.isAlphabetic first with
      | false => rw [Text.toLower_eq_self hletter, List.singleton_append]
      | true =>
        obtain ⟨small, heq, hsmall⟩ := Text.exists_toLower_eq hletter hdot
        rw [heq, List.singleton_append]
        simp [spellsIdentifier, isIdentifierFirst, hletter, hsmall]

/-- The same for what may follow something else. -/
theorem forall_mem_lowerFirst_iff {name : String} (h : isIdentifier name = true) :
    (∀ c ∈ (lowerFirst name).toList, isIdentifierRest c = true) ↔
      name.toList.head? ≠ some 'İ' := by
  constructor
  · intro hall hdot
    obtain ⟨rest, hrest⟩ := List.head?_eq_some_iff.mp hdot
    have hmark : isIdentifierRest '\u0307' = true := by
      refine hall _ ?_
      rw [lowerFirst, mapFirst, hrest]
      simp [Text.toLower_dotted]
    exact absurd hmark (by decide)
  · intro hdot
    exact all_isIdentifierRest (isIdentifier_lowerFirst_iff.mpr ⟨h, hdot⟩)

/-- A capital first letter may follow something else, unless it is spelled with a mark. -/
theorem forall_mem_upperFirst_iff {name : String} (h : isIdentifier name = true) :
    (∀ c ∈ (upperFirst name).toList, isIdentifierRest c = true) ↔
      ∀ first ∈ name.toList.head?, first.toNat ∉ Text.splitCapitals := by
  unfold isIdentifier at h
  unfold upperFirst mapFirst
  cases hchars : name.toList with
  | nil => simp
  | cons first rest =>
    rw [hchars] at h
    have hall := all_isIdentifierRest h
    obtain ⟨hfirst, hrest⟩ := List.forall_mem_cons.mp hall
    simp only [String.toList_ofList, List.forall_mem_append, List.head?_cons, Option.mem_some_iff,
      forall_eq']
    rw [and_iff_left hrest]
    constructor
    · intro hupper hsplit
      obtain ⟨mark, hmem, hnumber, hunderscore, hdollar⟩ :=
        Text.exists_mem_toUpper_of_mem_splitCapitals hsplit
      have hmark := hupper mark hmem
      simp [isIdentifierRest, hnumber, hunderscore, hdollar] at hmark
    · intro hsplit
      cases hletter : Text.isAlphabetic first with
      | false =>
        rw [Text.toUpper_eq_self hletter]
        exact List.forall_mem_singleton.mpr hfirst
      | true =>
        intro c hc
        exact isIdentifierRest_of_isAlphabetic (Text.isAlphabetic_of_mem_toUpper hletter hsplit c hc)

/-! ## Reserved words -/

theorem isReserved_bindingName (name : String) : isReserved (bindingName name) = false := by
  unfold bindingName
  split
  · rename_i h
    exact (isIdentifier_renamed h).2
  · rename_i h
    exact Bool.eq_false_iff.mpr h

theorem isIdentifier_bindingName (name : String) :
    isIdentifier (bindingName name) = isIdentifier name := by
  unfold bindingName
  split
  · rename_i h
    rw [(isIdentifier_renamed h).1, isIdentifier_of_isReserved h]
  · rfl

theorem isBindable_bindingName_iff {name : String} :
    IsBindable (bindingName name) ↔ isIdentifier name = true := by
  rw [IsBindable, isIdentifier_bindingName, isReserved_bindingName, eq_self, and_true]

/-- Reserved words begin in few ways. -/
theorem isReserved_append_eq_false {front : String} (name : String)
    (hfront : ∀ word ∈ reservedWords, ¬ front.toList <+: word.toList) :
    isReserved (front ++ name) = false := by
  refine Bool.eq_false_iff.mpr fun h => hfront _ (isReserved_iff.mp h) ?_
  rw [String.toList_append]
  exact List.prefix_append _ _

/-! ## Numbers at the end -/

theorem isIdentifierFirst_of_isDigit {c : Char} (h : c.isDigit = true) :
    isIdentifierFirst c = false := by
  have hrange : 48 ≤ c.toNat ∧ c.toNat ≤ 57 := by
    simpa [Char.isDigit, UInt32.le_iff_toNat_le] using h
  have hdigits : ∀ n ≤ 57, 48 ≤ n → isIdentifierFirst (Char.ofNat n) = false := by decide
  have hc := hdigits _ hrange.2 hrange.1
  rwa [Char.ofNat_toNat] at hc

namespace Scope

theorem isIdentifier_candidate (base : String) (n : Nat) :
    isIdentifier (candidate base n) = isIdentifier base := by
  cases n with
  | zero => rfl
  | succ n =>
    obtain ⟨digit, digits, hrepr⟩ := Nat.exists_repr_eq_cons (n + 1)
    have hall : ∀ c ∈ digit :: digits, c.isDigit = true := hrepr ▸ Nat.isDigit_of_mem_repr
    rw [candidate, isIdentifier, isIdentifier, String.toList_append, hrepr]
    cases base.toList with
    | nil =>
      have hfirst := isIdentifierFirst_of_isDigit (hall digit List.mem_cons_self)
      simp [spellsIdentifier, hfirst]
    | cons first rest =>
      have hrest : (digit :: digits).all isIdentifierRest = true :=
        List.all_eq_true.mpr fun c hc => isIdentifierRest_of_isDigit (hall c hc)
      rw [List.cons_append, spellsIdentifier, spellsIdentifier, List.all_append, hrest,
        Bool.and_true]

/-- No reserved word ends in a number. -/
theorem isReserved_candidate {base : String} (h : isReserved base = false) (n : Nat) :
    isReserved (candidate base n) = false := by
  cases n with
  | zero => exact h
  | succ n =>
    have hwords : ∀ word ∈ reservedWords, word.toList.all (fun c => !c.isDigit) = true := by
      decide
    obtain ⟨digit, digits, hrepr⟩ := Nat.exists_repr_eq_cons (n + 1)
    refine Bool.eq_false_iff.mpr fun hreserved => ?_
    have hmem : digit ∈ (candidate base (n + 1)).toList := by
      rw [candidate, String.toList_append, hrepr]
      exact List.mem_append_right _ List.mem_cons_self
    have hdigit := Nat.isDigit_of_mem_repr digit (hrepr ▸ List.mem_cons_self)
    have hword := List.all_eq_true.mp (hwords _ (isReserved_iff.mp hreserved)) digit hmem
    rw [hdigit] at hword
    cases hword

/-- A fresh name can be bound if the wanted name is an identifier. -/
theorem isBindable_fresh_iff {base : String} (h : isReserved base = false) (scope : Scope) :
    IsBindable (scope.fresh base) ↔ isIdentifier base = true := by
  obtain ⟨n, -, hfresh, -⟩ := scope.exists_fresh_eq base
  rw [IsBindable, hfresh, isIdentifier_candidate, isReserved_candidate h, eq_self, and_true]

/-- The same for many names in one scope. -/
theorem isBindable_takeAll_iff {bases : List String}
    (h : ∀ base ∈ bases, isReserved base = false) (scope : Scope) :
    (∀ name ∈ (scope.takeAll bases).1, IsBindable name) ↔
      ∀ base ∈ bases, isIdentifier base = true :=
  forall_mem_takeAll_iff (fun base hbase => isBindable_fresh_iff (h base hbase)) scope

end Scope

end AlgebraicData
