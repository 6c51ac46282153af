import AlgebraicData.Declaration.TypeExpr
import AlgebraicData.Declaration.Error

/-!
# Declarations

The declaration of an algebraic data type: a name, type parameters, and constructors with their
members.  A `Constructor` and a `Declaration` carry the proof of what the rest of the library relies
on, and `Constructor.ofMembers` and `Declaration.ofConstructors` say why some parts have none.
-/

namespace AlgebraicData

/-! ## Repeated names -/

/-- The first name of the list that stands in `seen` or earlier in the list. -/
def firstRepeatedAfter (seen : List String) : List String → Option String
  | [] => none
  | name :: names => if name ∈ seen then some name else firstRepeatedAfter (name :: seen) names

/-- The first name that stands earlier in the list. -/
def firstRepeated? (names : List String) : Option String :=
  firstRepeatedAfter [] names

theorem firstRepeatedAfter_eq_none_iff (seen names : List String) :
    firstRepeatedAfter seen names = none ↔ names.Nodup ∧ ∀ name ∈ names, name ∉ seen := by
  induction names generalizing seen with
  | nil => simp [firstRepeatedAfter]
  | cons name names ih =>
    by_cases h : name ∈ seen
    · simp [firstRepeatedAfter, h]
    · simp only [firstRepeatedAfter, h, if_false, ih, List.nodup_cons, List.mem_cons]
      grind

/-- No name is repeated exactly when the names are pairwise distinct. -/
theorem firstRepeated?_eq_none_iff (names : List String) :
    firstRepeated? names = none ↔ names.Nodup := by
  simp [firstRepeated?, firstRepeatedAfter_eq_none_iff]

/-! ## The parts of a declaration -/

/-- One member of a constructor: a field if it has a name, else positional. -/
structure Member where
  name : Option String
  type : TypeExpr
deriving DecidableEq, Repr

/-- A member without a field name. -/
def Member.positional (type : TypeExpr) : Member :=
  ⟨none, type⟩

/-- A member with a field name. -/
def Member.named (name : String) (type : TypeExpr) : Member :=
  ⟨some name, type⟩

/-- A type parameter, `A` or `(A :: T)` with the bound `T`. -/
structure TypeParameter where
  name : String
  bound : Option TypeExpr
deriving DecidableEq, Repr

/-- The names of the members that are fields. -/
def fieldNames (members : List Member) : List String :=
  members.filterMap (·.name)

/-- Either every member is a field or none is. -/
def Uniform (members : List Member) : Prop :=
  (∀ m ∈ members, m.name.isSome) ∨ (∀ m ∈ members, m.name.isNone)

instance (members : List Member) : Decidable (Uniform members) :=
  inferInstanceAs (Decidable (_ ∨ _))

/-! ## Constructors -/

/-- One alternative of a data type. -/
structure Constructor where
  name : String
  members : List Member
  uniform : Uniform members
  nodup_fields : (fieldNames members).Nodup
deriving DecidableEq, Repr

namespace Constructor

/-- The constructor with the given members, if they are all fields or all positional and no field
name is repeated. -/
def ofMembers (name : String) (members : List Member) : Except DeclarationError Constructor :=
  if uniform : Uniform members then
    match h : firstRepeated? (fieldNames members) with
    | none => .ok ⟨name, members, uniform, (firstRepeated?_eq_none_iff _).mp h⟩
    | some field => .error (.duplicateField name field)
  else
    .error (.mixedMembers name)

/-- Whether the constructor has no members. -/
def isNullary (c : Constructor) : Bool :=
  c.members.isEmpty

/-- Whether the constructor has members and they are fields. -/
def isRecord (c : Constructor) : Bool :=
  !c.members.isEmpty && c.members.all (·.name.isSome)

end Constructor

/-! ## Declarations -/

/-- `data Name params = C₁ … | C₂ …` -/
structure Declaration where
  name : String
  parameters : List TypeParameter
  constructors : List Constructor
  constructors_ne_nil : constructors ≠ []
  nodup_parameters : (parameters.map (·.name)).Nodup
  nodup_constructors : (constructors.map (·.name)).Nodup
deriving DecidableEq, Repr

namespace Declaration

/-- The declaration with the given parts, if there is a constructor and neither a parameter name nor
a constructor name is repeated. -/
def ofConstructors (name : String) (parameters : List TypeParameter)
    (constructors : List Constructor) : Except DeclarationError Declaration :=
  if nonempty : constructors = [] then
    .error (.noConstructors name)
  else
    match hp : firstRepeated? (parameters.map (·.name)) with
    | some parameter => .error (.duplicateParameter name parameter)
    | none =>
      match hc : firstRepeated? (constructors.map (·.name)) with
      | some constructor => .error (.duplicateConstructor name constructor)
      | none =>
        .ok ⟨name, parameters, constructors, nonempty, (firstRepeated?_eq_none_iff _).mp hp,
          (firstRepeated?_eq_none_iff _).mp hc⟩

/-- Whether there is a choice between constructors. -/
def isSum (d : Declaration) : Bool :=
  d.constructors.length > 1

/-- Whether there is exactly one constructor. -/
def isProduct (d : Declaration) : Bool :=
  d.constructors.length == 1

/-- Whether the type takes parameters. -/
def isPolymorphic (d : Declaration) : Bool :=
  !d.parameters.isEmpty

/-- Whether no constructor has members. -/
def isEnum (d : Declaration) : Bool :=
  d.constructors.all (·.isNullary)

/-- Whether some constructor has no members. -/
def hasNullary (d : Declaration) : Bool :=
  d.constructors.any (·.isNullary)

/-- Whether the member's type is the declared type itself, under any arguments. -/
def isRecursiveMember (d : Declaration) (m : Member) : Bool :=
  m.type.headName? == some d.name

/-- Whether some member's type is the declared type itself. -/
def isRecursive (d : Declaration) : Bool :=
  d.constructors.any fun c => c.members.any d.isRecursiveMember

end Declaration

end AlgebraicData
