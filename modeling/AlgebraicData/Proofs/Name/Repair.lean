import AlgebraicData.Proofs.Name.Casing

/-!
# Repaired and renamed names

Any name can be made into an identifier, and any identifier into a name that can be bound.  Repair
does as little as it can: characters that an identifier may hold stay (`repairChar_eq`), and `_` is
put in front only if the name begins in a way that no repair of its characters makes good
(`exists_front_identifierName`).  Neither repair nor the renaming of reserved words changes its own
results.
-/

namespace AlgebraicData

/-! ## Repair -/

/-- The name is empty, or it begins with a character that may stand in an identifier but not begin
one, as digits and other numbers do. -/
def LacksFirst (name : String) : Prop :=
  ∀ c ∈ name.toList.head?, isIdentifierRest c = true ∧ isIdentifierFirst c = false

/-- The characters that stay are those that an identifier may hold: `_` is among them, although it
is repaired like any sign, since it is repaired to itself. -/
theorem repairChar_eq (c : Char) : repairChar c = if isIdentifierRest c then c else '_' := by
  unfold repairChar isIdentifierRest
  by_cases hunderscore : c = '_'
  · simp [hunderscore]
  · have hne : (c == '_') = false := beq_eq_false_iff_ne.mpr hunderscore
    rw [hne, Bool.or_false]

/-- After repair, the first character begins an identifier unless it was fine where it could not
begin one. -/
theorem isIdentifierFirst_repairChar_iff (c : Char) :
    isIdentifierFirst (repairChar c) = true ↔
      ¬ (isIdentifierRest c = true ∧ isIdentifierFirst c = false) := by
  rw [repairChar_eq]
  by_cases hrest : isIdentifierRest c = true
  · simp [hrest]
  · have hunderscore : isIdentifierFirst '_' = true := by decide
    simp [hrest, hunderscore]

theorem identifierName_eq_self_iff {name : String} :
    identifierName name = name ↔ isIdentifier name = true := by
  constructor
  · intro h
    rw [← h]
    exact isIdentifier_identifierName name
  · intro h
    rw [identifierName, if_pos h]

/-- A name that is no identifier is repaired character by character, with `_` in front exactly where
a first character is lacking. -/
theorem exists_front_identifierName {name : String} (h : isIdentifier name = false) :
    ∃ front, (identifierName name).toList =
        front ++ name.toList.map (fun c => if isIdentifierRest c then c else '_') ∧
      (front = [] ∨ front = ['_']) ∧ (front = ['_'] ↔ LacksFirst name) := by
  have hrepaired : (identifierName name).toList = guardFirst (name.toList.map repairChar) := by
    rw [identifierName, h, if_neg Bool.false_ne_true, String.toList_ofList]
  rw [hrepaired, ← funext repairChar_eq]
  unfold LacksFirst
  cases name.toList with
  | nil => exact ⟨['_'], rfl, .inr rfl, by simp⟩
  | cons first rest =>
    simp only [List.head?_cons, Option.mem_some_iff, forall_eq', List.map_cons, guardFirst]
    by_cases hfirst : isIdentifierFirst (repairChar first) = true
    · have hnot := (isIdentifierFirst_repairChar_iff first).mp hfirst
      exact ⟨[], if_pos hfirst, .inl rfl, by simp [hnot]⟩
    · have hlacks := not_not.mp (mt (isIdentifierFirst_repairChar_iff first).mpr hfirst)
      exact ⟨['_'], if_neg hfirst, .inr rfl, by simp [hlacks]⟩

/-! ## Reserved words -/

theorem bindingName_eq_self {name : String} (h : isReserved name = false) :
    bindingName name = name := by
  rw [bindingName, h, if_neg Bool.false_ne_true]

/-- Repair gives an identifier for every name, keeps exactly the identifiers and so its own results.
Any other name is repaired character by character: what an identifier may hold stays, the rest
becomes `_`, and a single `_` is put in front where nothing could begin an identifier.

The binding for an identifier is an identifier, not a reserved word, and not renamed again. -/
theorem repair_and_renaming_succeed :
    (∀ name, isIdentifier (identifierName name) = true) ∧
    (∀ name, identifierName name = name ↔ isIdentifier name = true) ∧
    (∀ name, identifierName (identifierName name) = identifierName name) ∧
    (∀ name, isIdentifier name = false → ∃ front, (identifierName name).toList =
        front ++ name.toList.map (fun c => if isIdentifierRest c then c else '_') ∧
      (front = [] ∨ front = ['_']) ∧ (front = ['_'] ↔ LacksFirst name)) ∧
    ∀ name, isIdentifier name = true → isIdentifier (bindingName name) = true ∧
      isReserved (bindingName name) = false ∧
      bindingName (bindingName name) = bindingName name := by
  refine ⟨isIdentifier_identifierName, ?_, ?_, ?_, ?_⟩
  · intro name
    exact identifierName_eq_self_iff
  · intro name
    exact identifierName_eq_self_iff.mpr (isIdentifier_identifierName name)
  · intro name h
    exact exists_front_identifierName h
  · intro name h
    have hbinding : IsBindable (bindingName name) := isBindable_bindingName_iff.mpr h
    exact ⟨hbinding.1, hbinding.2, bindingName_eq_self hbinding.2⟩

-- a digit that is not a letter in front, and a mark that no identifier holds after it
theorem arabicDigit_repaired :
    isIdentifier "٣\u0301x" = false ∧ isIdentifier (identifierName "٣\u0301x") = true ∧
      identifierName "٣\u0301x" = "_٣_x" ∧ isIdentifier "yield" = true ∧
      isReserved (bindingName "yield") = false := by
  obtain ⟨hidentifier, -, -, -, hbinding⟩ := repair_and_renaming_succeed
  exact ⟨by decide, hidentifier _, by decide, by decide, (hbinding _ (by decide)).2.1⟩

end AlgebraicData
