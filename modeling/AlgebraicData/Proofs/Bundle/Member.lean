import Mathlib
import AlgebraicData.Bundle.Types
import AlgebraicData.Proofs.Name.Identifier

/-!
# The names of members

A member is a property of the objects of its constructor, and a parameter of the function that makes
them.  The properties of a constructor always differ (`Constructor.nodup_properties`).  Its
parameters are made from the same names, but two renamings stand in between, and each can meet a
name that was there before: a field that is not an identifier is called after its position, and a
reserved word gets a trailing `_`.  `Constructor.ParamsClash` says when this happens, and
`Constructor.nodup_params_iff` that nothing else makes two parameters equal.
-/

namespace AlgebraicData

/-! ## Positional names -/

theorem positionalName_injective : Function.Injective positionalName :=
  fun _ _ h => Nat.repr_inj.mp ((String.append_right_inj "value").mp h)

theorem isIdentifier_positionalName (position : Nat) :
    isIdentifier (positionalName position) = true := by
  have hdigits : (Nat.toDigits 10 position).all isIdentifierRest = true :=
    List.all_eq_true.mpr fun c hc =>
      isIdentifierRest_of_isDigit (Nat.isDigit_of_mem_toDigits (by decide) (by decide) hc)
  have hword : spellsIdentifier "value".toList = true := by decide
  rw [isIdentifier, positionalName, String.toList_append, Nat.toList_repr]
  simp_all [spellsIdentifier]

/-- A positional name is neither a reserved word nor the renamed form of one. -/
theorem positionalName_ne {word : String} (h : isReserved word = true) (position : Nat) :
    positionalName position ≠ word ∧ positionalName position ≠ word ++ "_" := by
  have hwords : ∀ word ∈ reservedWords,
      ¬ "value".toList <+: word.toList ∧ ¬ "value".toList <+: (word ++ "_").toList := by
    decide
  have hprefix : "value".toList <+: (positionalName position).toList := by
    rw [positionalName, String.toList_append]
    exact List.prefix_append _ _
  obtain ⟨hword, hrenamed⟩ := hwords word (isReserved_iff.mp h)
  exact ⟨fun heq => hword (heq ▸ hprefix), fun heq => hrenamed (heq ▸ hprefix)⟩

namespace Member

variable {m : Member} {field : String}

theorem label_of_isIdentifier (hname : m.name = some field) (h : isIdentifier field = true)
    (position : Nat) : m.label position = field := by
  simp [label, property, hname, h]

/-- A member that is not called by an identifier is called after its position. -/
theorem label_of_forall (h : ∀ field, m.name = some field → isIdentifier field = false)
    (position : Nat) : m.label position = positionalName position := by
  rw [label]
  cases hname : m.name with
  | none => simp [property, hname]
  | some field => simp [property, hname, h field hname]

theorem label_cases (m : Member) (position : Nat) :
    (∃ field, m.name = some field ∧ isIdentifier field = true ∧ m.label position = field) ∨
      ((∀ field, m.name = some field → isIdentifier field = false) ∧
        m.label position = positionalName position) := by
  by_cases h : ∃ field, m.name = some field ∧ isIdentifier field = true
  · obtain ⟨field, hname, hfield⟩ := h
    exact .inl ⟨field, hname, hfield, label_of_isIdentifier hname hfield position⟩
  · have hnot : ∀ field, m.name = some field → isIdentifier field = false :=
      fun field hname => Bool.eq_false_iff.mpr fun hfield => h ⟨field, hname, hfield⟩
    exact .inr ⟨hnot, label_of_forall hnot position⟩

end Member

namespace Constructor

/-! ## Properties -/

/-- The properties that hold the members, in order. -/
def properties (c : Constructor) : List String :=
  c.members.zipIdx.map fun (m, position) => m.property position

theorem properties_eq_of_named {members : List Member} (h : ∀ m ∈ members, m.name.isSome)
    (k : Nat) :
    (members.zipIdx k).map (fun (m, position) => m.property position) = fieldNames members := by
  induction members generalizing k with
  | nil => rfl
  | cons m members ih =>
    obtain ⟨hm, hmembers⟩ := List.forall_mem_cons.mp h
    obtain ⟨field, hname⟩ := Option.isSome_iff_exists.mp hm
    have ih' := ih hmembers (k + 1)
    rw [fieldNames] at ih' ⊢
    rw [List.zipIdx_cons, List.map_cons, ih', List.filterMap_cons, hname]
    simp [Member.property, hname]

theorem properties_eq_of_positional {c : Constructor} (h : ∀ m ∈ c.members, m.name = none) :
    c.properties = (List.range c.members.length).map positionalName := by
  have hnames : c.properties = (c.members.zipIdx.map (·.2)).map positionalName := by
    rw [properties, List.map_map]
    refine List.map_congr_left fun ⟨m, position⟩ hmem => ?_
    simp [Member.property, h m (List.fst_mem_of_mem_zipIdx hmem)]
  rw [hnames, List.zipIdx_map_snd, List.range_eq_range']

/-- The properties of a constructor differ. -/
theorem nodup_properties (c : Constructor) : c.properties.Nodup := by
  rcases c.uniform with hnamed | hpositional
  · rw [properties, properties_eq_of_named hnamed]
    exact c.nodup_fields
  · rw [properties_eq_of_positional fun m hm => Option.isNone_iff_eq_none.mp (hpositional m hm)]
    exact List.nodup_range.map positionalName_injective

theorem nodup_zipIdx_members (c : Constructor) : c.members.zipIdx.Nodup :=
  (List.nodup_zipIdx_map_snd c.members).of_map _

/-- A member is determined by its property. -/
theorem eq_of_property_eq {c : Constructor} {x y : Member × Nat} (hx : x ∈ c.members.zipIdx)
    (hy : y ∈ c.members.zipIdx) (h : x.1.property x.2 = y.1.property y.2) : x = y :=
  List.inj_on_of_nodup_map c.nodup_properties hx hy h

/-! ## Parameters -/

theorem map_name_params (c : Constructor) :
    c.params.map (·.name) = c.members.zipIdx.map fun (m, position) => m.binding position := by
  rw [params, List.map_map]
  rfl

/-- Two fields get the same parameter: one is not an identifier, and the name that stands for its
position is another field; or one is a reserved word, and its renamed form is another field. -/
def ParamsClash (c : Constructor) : Prop :=
  (∃ position m field, (m, position) ∈ c.members.zipIdx ∧ m.name = some field ∧
    isIdentifier field = false ∧ positionalName position ∈ fieldNames c.members) ∨
  ∃ word ∈ fieldNames c.members, isReserved word = true ∧ word ++ "_" ∈ fieldNames c.members

theorem exists_of_mem_fieldNames {members : List Member} {field : String}
    (h : field ∈ fieldNames members) :
    ∃ m position, (m, position) ∈ members.zipIdx ∧ m.name = some field := by
  obtain ⟨m, hm, hname⟩ := List.mem_filterMap.mp h
  obtain ⟨position, hposition⟩ := List.mem_iff_getElem?.mp hm
  exact ⟨m, position, List.mk_mem_zipIdx_iff_getElem?.mpr hposition, hname⟩

theorem mem_fieldNames_of_mem {members : List Member} {field : String} {m : Member}
    {position : Nat} (hm : (m, position) ∈ members.zipIdx) (hname : m.name = some field) :
    field ∈ fieldNames members :=
  List.mem_filterMap.mpr ⟨m, List.fst_mem_of_mem_zipIdx hm, hname⟩

section Clashes

variable {c : Constructor} {x y : Member × Nat}

/-- Beside a field there are fields only. -/
theorem exists_name_of_named (hx : x ∈ c.members.zipIdx) (hy : y ∈ c.members.zipIdx)
    {field : String} (hname : x.1.name = some field) : ∃ field', y.1.name = some field' := by
  rcases c.uniform with hnamed | hpositional
  · exact Option.isSome_iff_exists.mp (hnamed _ (List.fst_mem_of_mem_zipIdx hy))
  · have hnone := hpositional _ (List.fst_mem_of_mem_zipIdx hx)
    rw [hname] at hnone
    cases hnone

/-- A member that is called after its position meets a field of that name. -/
theorem paramsClash_of_label_eq (hx : x ∈ c.members.zipIdx) (hy : y ∈ c.members.zipIdx)
    {field : String} (hname : x.1.name = some field)
    (hnot : ∀ field', y.1.name = some field' → isIdentifier field' = false)
    (h : field = positionalName y.2) : c.ParamsClash := by
  obtain ⟨field', hname'⟩ := exists_name_of_named hx hy hname
  refine .inl ⟨y.2, y.1, field', hy, hname', hnot field' hname', ?_⟩
  rw [← h]
  exact mem_fieldNames_of_mem hx hname

theorem eq_of_label_eq (hclash : ¬ c.ParamsClash) (hx : x ∈ c.members.zipIdx)
    (hy : y ∈ c.members.zipIdx) (h : x.1.label x.2 = y.1.label y.2) : x = y := by
  rcases x.1.label_cases x.2 with ⟨field, hname, -, hlabel⟩ | ⟨hnot, hlabel⟩
  · rcases y.1.label_cases y.2 with ⟨field', hname', -, hlabel'⟩ | ⟨hnot', hlabel'⟩
    · refine eq_of_property_eq hx hy ?_
      rw [Member.property, Member.property, hname, hname', ← hlabel, ← hlabel', h]
      rfl
    · refine absurd (paramsClash_of_label_eq hx hy hname hnot' ?_) hclash
      rw [← hlabel, h, hlabel']
  · rcases y.1.label_cases y.2 with ⟨field', hname', -, hlabel'⟩ | ⟨hnot', hlabel'⟩
    · refine absurd (paramsClash_of_label_eq hy hx hname' hnot ?_) hclash
      rw [← hlabel', ← h, hlabel]
    · have hposition : x.2 = y.2 := by
        apply positionalName_injective
        rw [← hlabel, h, hlabel']
      exact List.inj_on_of_nodup_map (List.nodup_zipIdx_map_snd c.members) hx hy hposition

/-- A field that is renamed meets a field of the renamed form. -/
theorem paramsClash_of_renamed (hx : x ∈ c.members.zipIdx) (hy : y ∈ c.members.zipIdx)
    (hreserved : isReserved (x.1.label x.2) = true)
    (h : y.1.label y.2 = x.1.label x.2 ++ "_") : c.ParamsClash := by
  have hpositional := fun position => positionalName_ne hreserved position
  rcases x.1.label_cases x.2 with ⟨word, hname, -, hlabel⟩ | ⟨-, hlabel⟩
  · rcases y.1.label_cases y.2 with ⟨field, hname', -, hlabel'⟩ | ⟨-, hlabel'⟩
    · rw [hlabel'] at h
      refine .inr ⟨x.1.label x.2, ?_, hreserved, ?_⟩
      · rw [hlabel]
        exact mem_fieldNames_of_mem hx hname
      · rw [← h]
        exact mem_fieldNames_of_mem hy hname'
    · exact absurd (hlabel'.symm.trans h) (hpositional y.2).2
  · exact absurd hlabel.symm (hpositional x.2).1

theorem eq_of_binding_eq (hclash : ¬ c.ParamsClash) (hx : x ∈ c.members.zipIdx)
    (hy : y ∈ c.members.zipIdx) (h : x.1.binding x.2 = y.1.binding y.2) : x = y := by
  rcases bindingName_eq_iff.mp h with hlabel | ⟨hreserved, hrenamed⟩ | ⟨hreserved, hrenamed⟩
  · exact eq_of_label_eq hclash hx hy hlabel
  · exact absurd (paramsClash_of_renamed hx hy hreserved hrenamed) hclash
  · exact absurd (paramsClash_of_renamed hy hx hreserved hrenamed) hclash

/-- A clash gives two members one parameter. -/
theorem ParamsClash.exists_binding_eq (h : c.ParamsClash) :
    ∃ x ∈ c.members.zipIdx, ∃ y ∈ c.members.zipIdx,
      x.1.binding x.2 = y.1.binding y.2 ∧ x.1.name ≠ y.1.name := by
  rcases h with ⟨position, m, field, hm, hname, hfield, hmem⟩ | ⟨word, hword, hreserved, hmem⟩
  · obtain ⟨m', position', hm', hname'⟩ := exists_of_mem_fieldNames hmem
    refine ⟨_, hm, _, hm', ?_, ?_⟩
    · have hidentifier := isIdentifier_positionalName position
      rw [Member.binding, Member.binding, Member.label_of_isIdentifier hname' hidentifier,
        Member.label_of_forall]
      simpa [hname] using hfield
    · intro heq
      simp only [hname, hname', Option.some.injEq] at heq
      rw [heq, isIdentifier_positionalName] at hfield
      cases hfield
  · obtain ⟨m, position, hm, hname⟩ := exists_of_mem_fieldNames hword
    obtain ⟨m', position', hm', hname'⟩ := exists_of_mem_fieldNames hmem
    obtain ⟨hidentifier, -⟩ := isIdentifier_renamed hreserved
    refine ⟨_, hm, _, hm', ?_, ?_⟩
    · refine bindingName_eq_iff.mpr (.inr (.inl ?_))
      rw [Member.label_of_isIdentifier hname (isIdentifier_of_isReserved hreserved),
        Member.label_of_isIdentifier hname' hidentifier]
      exact ⟨hreserved, rfl⟩
    · simp only [hname, hname', ne_eq, Option.some.injEq]
      exact ne_renamed word

end Clashes

/-- The parameters of a constructor differ exactly if its fields do not clash. -/
theorem nodup_params_iff (c : Constructor) :
    (c.params.map (·.name)).Nodup ↔ ¬ c.ParamsClash := by
  rw [map_name_params, List.nodup_map_iff_inj_on c.nodup_zipIdx_members]
  constructor
  · intro hinj hclash
    obtain ⟨x, hx, y, hy, hbinding, hname⟩ := hclash.exists_binding_eq
    exact hname (congrArg (·.1.name) (hinj x hx y hy hbinding))
  · exact fun hclash x hx y hy hbinding => eq_of_binding_eq hclash hx hy hbinding

theorem not_paramsClash_of_positional {c : Constructor} (h : ∀ m ∈ c.members, m.name = none) :
    ¬ c.ParamsClash := by
  have hnone : fieldNames c.members = [] := List.filterMap_eq_nil_iff.mpr h
  simp [ParamsClash, hnone]

end Constructor

end AlgebraicData
