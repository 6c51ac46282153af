import AlgebraicData.Proofs.Prelude
import AlgebraicData.Declaration.Basic

/-!
# Which parts make a declaration

Parts make a `Constructor` or a `Declaration` exactly if they keep what these types promise.  Where
they do not, the first thing that is wrong is reported, and what comes first is said here without
the search for it:

* `IsFirstRepeatedName` — the name is the first of its list that stands earlier in the list.  The
  search keeps the names it has passed, and finds exactly this name (`firstRepeated?_eq_some_iff`).
* `Constructor.FirstViolation` and `Declaration.FirstViolation` — the error to be reported.  No parts
  have two of them, and parts that keep the promises have none.

`Constructor.ofMembers_cases` and `Declaration.ofConstructors_cases` list what the two functions can
answer, and all that follows is drawn from these lists.
-/

namespace AlgebraicData

/-! ## The first repeated name -/

/-- The name stands after names that differ from one another, and is one of them. -/
def IsFirstRepeatedName (names : List String) (name : String) : Prop :=
  ∃ before after, names = before ++ name :: after ∧ before.Nodup ∧ name ∈ before

theorem exists_of_firstRepeatedAfter {seen names : List String} {name : String}
    (h : firstRepeatedAfter seen names = some name) :
    ∃ before after, names = before ++ name :: after ∧ before.Nodup ∧ (∀ b ∈ before, b ∉ seen) ∧
      (name ∈ seen ∨ name ∈ before) := by
  induction names generalizing seen with
  | nil => cases h
  | cons first names ih =>
    rw [firstRepeatedAfter] at h
    by_cases hseen : first ∈ seen
    · rw [if_pos hseen] at h
      obtain rfl := Option.some.inj h
      exact ⟨[], names, rfl, List.nodup_nil, List.forall_mem_nil _, .inl hseen⟩
    · rw [if_neg hseen] at h
      obtain ⟨before, after, rfl, hnodup, hnew, hname⟩ := ih h
      simp only [List.mem_cons, not_or] at hnew
      refine ⟨first :: before, after, rfl, List.nodup_cons.mpr ⟨?_, hnodup⟩, ?_, ?_⟩
      · exact fun hmem => (hnew first hmem).1 rfl
      · exact List.forall_mem_cons.mpr ⟨hseen, fun b hb => (hnew b hb).2⟩
      · simp only [List.mem_cons] at hname ⊢
        tauto

/-- The search passes over new names and keeps them. -/
theorem firstRepeatedAfter_append {seen before : List String} (hnodup : before.Nodup)
    (hnew : ∀ b ∈ before, b ∉ seen) (names : List String) :
    firstRepeatedAfter seen (before ++ names) =
      firstRepeatedAfter (before.reverse ++ seen) names := by
  induction before generalizing seen with
  | nil => rfl
  | cons first before ih =>
    obtain ⟨hfirst, hnodup⟩ := List.nodup_cons.mp hnodup
    obtain ⟨hseen, hnew⟩ := List.forall_mem_cons.mp hnew
    have hnew' : ∀ b ∈ before, b ∉ first :: seen := by
      intro b hb hmem
      rcases List.mem_cons.mp hmem with rfl | hmem
      · exact hfirst hb
      · exact hnew b hb hmem
    rw [List.cons_append, firstRepeatedAfter, if_neg hseen, ih hnodup hnew', List.reverse_cons,
      List.append_assoc, List.singleton_append]

theorem firstRepeated?_eq_some_iff {names : List String} {name : String} :
    firstRepeated? names = some name ↔ IsFirstRepeatedName names name := by
  constructor
  · intro h
    obtain ⟨before, after, hnames, hnodup, -, hname⟩ := exists_of_firstRepeatedAfter h
    exact ⟨before, after, hnames, hnodup, hname.resolve_left List.not_mem_nil⟩
  · rintro ⟨before, after, rfl, hnodup, hname⟩
    have hnew : ∀ b ∈ before, b ∉ [] := fun b _ => List.not_mem_nil
    rw [firstRepeated?, firstRepeatedAfter_append hnodup hnew, firstRepeatedAfter, if_pos]
    simpa using hname

theorem IsFirstRepeatedName.not_nodup {names : List String} {name : String}
    (h : IsFirstRepeatedName names name) : ¬ names.Nodup := by
  rw [← firstRepeated?_eq_none_iff, firstRepeated?_eq_some_iff.mpr h]
  exact Option.some_ne_none name

theorem IsFirstRepeatedName.unique {names : List String} {name name' : String}
    (h : IsFirstRepeatedName names name) (h' : IsFirstRepeatedName names name') : name = name' := by
  rw [← firstRepeated?_eq_some_iff] at h h'
  exact Option.some.inj (h.symm.trans h')

/-! ## Constructors -/

/-- Members are mixed if one has a name and another has none. -/
theorem not_uniform_iff {members : List Member} :
    ¬ Uniform members ↔ (∃ m ∈ members, m.name.isSome) ∧ ∃ m ∈ members, m.name.isNone := by
  simp [Uniform, Option.isSome_iff_ne_none, and_comm]

namespace Constructor

/-- The constructor with positional members of these types. -/
def ofTypes (name : String) (types : List TypeExpr) : Constructor where
  name := name
  members := types.map .positional
  uniform := .inr (List.forall_mem_map.mpr fun _ _ => rfl)
  nodup_fields := by
    simp [fieldNames, Member.positional, Function.comp_def]

/-- The constructor with these fields. -/
def ofFields (name : String) (fields : List (String × TypeExpr))
    (h : (fields.map (·.1)).Nodup) : Constructor where
  name := name
  members := fields.map fun field => .named field.1 field.2
  uniform := .inl (List.forall_mem_map.mpr fun _ _ => rfl)
  nodup_fields := by
    simpa [fieldNames, Member.named, Function.comp_def] using h

/-- What is reported about the members of a constructor: that they are mixed, or else the first
repeated field. -/
inductive FirstViolation (name : String) (members : List Member) : DeclarationError → Prop where
  | mixed : (∃ m ∈ members, m.name.isSome) → (∃ m ∈ members, m.name.isNone) →
      FirstViolation name members (.mixedMembers name)
  | field {field : String} : Uniform members → IsFirstRepeatedName (fieldNames members) field →
      FirstViolation name members (.duplicateField name field)

variable {name : String} {members : List Member} {error error' : DeclarationError}

theorem FirstViolation.not_invariant (h : FirstViolation name members error) :
    ¬ (Uniform members ∧ (fieldNames members).Nodup) := by
  rintro ⟨huniform, hnodup⟩
  cases h with
  | mixed hnamed hpositional => exact not_uniform_iff.mpr ⟨hnamed, hpositional⟩ huniform
  | field _ hfield => exact hfield.not_nodup hnodup

theorem FirstViolation.unique (h : FirstViolation name members error)
    (h' : FirstViolation name members error') : error = error' := by
  cases h with
  | mixed hnamed hpositional =>
    cases h' with
    | mixed => rfl
    | field huniform => exact absurd huniform (not_uniform_iff.mpr ⟨hnamed, hpositional⟩)
  | field huniform hfield =>
    cases h' with
    | mixed hnamed hpositional =>
      exact absurd huniform (not_uniform_iff.mpr ⟨hnamed, hpositional⟩)
    | field _ hfield' => rw [hfield.unique hfield']

/-- What can be answered about some members. -/
theorem ofMembers_cases (name : String) (members : List Member) :
    (∃ huniform hnodup, ofMembers name members = .ok ⟨name, members, huniform, hnodup⟩) ∨
      ∃ error, ofMembers name members = .error error ∧ FirstViolation name members error := by
  unfold ofMembers
  split
  · rename_i huniform
    split
    · rename_i hnone
      exact .inl ⟨huniform, (firstRepeated?_eq_none_iff _).mp hnone, rfl⟩
    · rename_i field hfield
      exact .inr ⟨_, rfl, .field huniform (firstRepeated?_eq_some_iff.mp hfield)⟩
  · rename_i hmixed
    obtain ⟨hnamed, hpositional⟩ := not_uniform_iff.mp hmixed
    exact .inr ⟨_, rfl, .mixed hnamed hpositional⟩

/-- A constructor is what it is made of; that names differ is no part of it. -/
theorem ofMembers_eq_ok_iff {c : Constructor} :
    ofMembers name members = .ok c ↔ (c.name, c.members) = (name, members) := by
  rcases ofMembers_cases name members with ⟨huniform, hnodup, hok⟩ | ⟨error, herror, hviolation⟩
  · rw [hok, Except.ok.injEq]
    cases c
    simp only [mk.injEq, Prod.mk.injEq, eq_comm]
  · rw [herror]
    refine ⟨fun h => (by cases h), fun h => ?_⟩
    obtain ⟨rfl, rfl⟩ := Prod.mk.inj h
    exact absurd ⟨c.uniform, c.nodup_fields⟩ hviolation.not_invariant

theorem ofMembers_decided (name : String) (members : List Member) :
    ((∃ c, ofMembers name members = .ok c) ↔ Uniform members ∧ (fieldNames members).Nodup) ∧
      ∀ error, ofMembers name members = .error error ↔ FirstViolation name members error := by
  refine Except.decided_of_cases ?_ (fun _ h => h.not_invariant) (fun _ _ h h' => h.unique h')
  rcases ofMembers_cases name members with ⟨huniform, hnodup, hok⟩ | herror
  · exact .inl ⟨⟨huniform, hnodup⟩, _, hok⟩
  · exact .inr herror

end Constructor

/-! ## Declarations -/

namespace Declaration

/-- What is reported about the parts of a declaration: that there is no constructor, or else the
first repeated parameter, or else the first repeated constructor. -/
inductive FirstViolation (name : String) (parameters : List TypeParameter)
    (constructors : List Constructor) : DeclarationError → Prop where
  | empty : constructors = [] →
      FirstViolation name parameters constructors (.noConstructors name)
  | parameter {parameter : String} : constructors ≠ [] →
      IsFirstRepeatedName (parameters.map (·.name)) parameter →
      FirstViolation name parameters constructors (.duplicateParameter name parameter)
  | constructor {constructor : String} : constructors ≠ [] → (parameters.map (·.name)).Nodup →
      IsFirstRepeatedName (constructors.map (·.name)) constructor →
      FirstViolation name parameters constructors (.duplicateConstructor name constructor)

variable {name : String} {parameters : List TypeParameter} {constructors : List Constructor}
  {error error' : DeclarationError}

theorem FirstViolation.not_invariant (h : FirstViolation name parameters constructors error) :
    ¬ (constructors ≠ [] ∧ (parameters.map (·.name)).Nodup ∧
      (constructors.map (·.name)).Nodup) := by
  rintro ⟨hne, hparameters, hconstructors⟩
  cases h with
  | empty hnil => exact hne hnil
  | parameter _ hname => exact hname.not_nodup hparameters
  | constructor _ _ hname => exact hname.not_nodup hconstructors

theorem FirstViolation.unique (h : FirstViolation name parameters constructors error)
    (h' : FirstViolation name parameters constructors error') : error = error' := by
  cases h with
  | empty hnil =>
    cases h' with
    | empty => rfl
    | parameter hne => exact absurd hnil hne
    | constructor hne => exact absurd hnil hne
  | parameter hne hname =>
    cases h' with
    | empty hnil => exact absurd hnil hne
    | parameter _ hname' => rw [hname.unique hname']
    | constructor _ hnodup => exact absurd hnodup hname.not_nodup
  | constructor hne hnodup hname =>
    cases h' with
    | empty hnil => exact absurd hnil hne
    | parameter _ hname' => exact absurd hnodup hname'.not_nodup
    | constructor _ _ hname' => rw [hname.unique hname']

/-- What can be answered about some parts. -/
theorem ofConstructors_cases (name : String) (parameters : List TypeParameter)
    (constructors : List Constructor) :
    (∃ hne hparameters hconstructors, ofConstructors name parameters constructors =
        .ok ⟨name, parameters, constructors, hne, hparameters, hconstructors⟩) ∨
      ∃ error, ofConstructors name parameters constructors = .error error ∧
        FirstViolation name parameters constructors error := by
  unfold ofConstructors
  split
  · rename_i hnil
    exact .inr ⟨_, rfl, .empty hnil⟩
  · rename_i hne
    split
    · rename_i parameter hparameter
      exact .inr ⟨_, rfl, .parameter hne (firstRepeated?_eq_some_iff.mp hparameter)⟩
    · rename_i hnone
      have hparameters := (firstRepeated?_eq_none_iff _).mp hnone
      split
      · rename_i constructor hconstructor
        have hname := firstRepeated?_eq_some_iff.mp hconstructor
        exact .inr ⟨_, rfl, .constructor hne hparameters hname⟩
      · rename_i hnone'
        exact .inl ⟨hne, hparameters, (firstRepeated?_eq_none_iff _).mp hnone', rfl⟩

theorem ofConstructors_eq_ok_iff {d : Declaration} :
    ofConstructors name parameters constructors = .ok d ↔
      d.name = name ∧ d.parameters = parameters ∧ d.constructors = constructors := by
  rcases ofConstructors_cases name parameters constructors with
    ⟨hne, hparameters, hconstructors, hok⟩ | ⟨error, herror, hviolation⟩
  · rw [hok, Except.ok.injEq]
    cases d
    simp only [mk.injEq, eq_comm]
  · rw [herror]
    refine ⟨fun h => (by cases h), ?_⟩
    rintro ⟨rfl, rfl, rfl⟩
    exact absurd ⟨d.constructors_ne_nil, d.nodup_parameters, d.nodup_constructors⟩
      hviolation.not_invariant

theorem ofConstructors_decided (name : String) (parameters : List TypeParameter)
    (constructors : List Constructor) :
    ((∃ d, ofConstructors name parameters constructors = .ok d) ↔
      constructors ≠ [] ∧ (parameters.map (·.name)).Nodup ∧ (constructors.map (·.name)).Nodup) ∧
      ∀ error, ofConstructors name parameters constructors = .error error ↔
        FirstViolation name parameters constructors error := by
  refine Except.decided_of_cases ?_ (fun _ h => h.not_invariant) (fun _ _ h h' => h.unique h')
  rcases ofConstructors_cases name parameters constructors with
    ⟨hne, hparameters, hconstructors, hok⟩ | herror
  · exact .inl ⟨⟨hne, hparameters, hconstructors⟩, _, hok⟩
  · exact .inr herror

end Declaration

/-- Members make a constructor exactly if they are all fields or all positional and no field name is
repeated, and parts make a declaration exactly if there is a constructor and neither a parameter name
nor a constructor name is repeated.  What is made has the given name and the given lists.  Otherwise
the first violation is reported. -/
theorem parts_accepted_or_first_violation_reported :
    (∀ name members,
      ((∃ c, Constructor.ofMembers name members = .ok c) ↔
        Uniform members ∧ (fieldNames members).Nodup) ∧
      (∀ error, Constructor.ofMembers name members = .error error ↔
        Constructor.FirstViolation name members error) ∧
      ∀ c, Constructor.ofMembers name members = .ok c → c.name = name ∧ c.members = members) ∧
    ∀ name parameters constructors,
      ((∃ d, Declaration.ofConstructors name parameters constructors = .ok d) ↔
        constructors ≠ [] ∧ (parameters.map (·.name)).Nodup ∧
          (constructors.map (·.name)).Nodup) ∧
      (∀ error, Declaration.ofConstructors name parameters constructors = .error error ↔
        Declaration.FirstViolation name parameters constructors error) ∧
      ∀ d, Declaration.ofConstructors name parameters constructors = .ok d →
        d.name = name ∧ d.parameters = parameters ∧ d.constructors = constructors := by
  constructor
  · intro name members
    obtain ⟨hok, herror⟩ := Constructor.ofMembers_decided name members
    exact ⟨hok, herror, fun c hc => Prod.mk.inj (Constructor.ofMembers_eq_ok_iff.mp hc)⟩
  · intro name parameters constructors
    obtain ⟨hok, herror⟩ := Declaration.ofConstructors_decided name parameters constructors
    exact ⟨hok, herror, fun d hd => Declaration.ofConstructors_eq_ok_iff.mp hd⟩

-- the first field is repeated too, but later
theorem crossedFields_report_inner :
    let members := ["a", "b", "b", "a"].map fun field => Member.named field .unit
    Uniform members ∧ IsFirstRepeatedName (fieldNames members) "b" ∧
      Constructor.ofMembers "C" members = .error (.duplicateField "C" "b") := by
  have huniform : Uniform (["a", "b", "b", "a"].map fun field => Member.named field .unit) := by
    decide
  have hfirst : IsFirstRepeatedName ["a", "b", "b", "a"] "b" :=
    ⟨["a", "b"], ["a"], rfl, by decide, by decide⟩
  obtain ⟨hconstructors, -⟩ := parts_accepted_or_first_violation_reported
  exact ⟨huniform, hfirst, ((hconstructors "C" _).2.1 _).mpr (.field huniform hfirst)⟩

end AlgebraicData
