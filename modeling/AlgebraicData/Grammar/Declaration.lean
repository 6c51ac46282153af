import AlgebraicData.Grammar.TypeExpr
import AlgebraicData.Declaration.Basic
import AlgebraicData.Text.Brace

/-!
# The grammar of declarations

    declaration := "data" identifier parameter* "=" constructor ("|" constructor)* end
    parameter   := identifier | "(" identifier "::" type ")"
    constructor := identifier ("{" field ("," field)* "}" | member*)
    member      := atom "->" type | atom
    field       := identifier "::" type

What the grammar cannot say, such as that names differ, is checked once the whole text has been
read, and the failure then points at the second use of the name.
-/

namespace AlgebraicData

namespace Grammar

open Rule Token

/-! ## Members -/

/-- A positional member; the arguments of a named type need parentheses around the whole. -/
def member : Rule Member := do
  let domain ← atom
  let type ← arrowTail domain
  return .positional type

/-- `name :: T`. -/
def field : Rule Member := do
  let name ← identifier
  let _ ← symbol "::"
  let type ← typeExpr
  return .named name type

/-! ## Constructors -/

/-- The text at the second use of a name. -/
def secondUse (name : String) (uses : List (List Char × String)) : Option (List Char) :=
  ((uses.filter (·.2 == name))[1]?).map (·.1)

/-- A constructor as read, its members not yet checked. -/
structure ConstructorDraft where
  name : String
  members : List (Located Member)

namespace ConstructorDraft

/-- Where each field name is used. -/
def fieldUses (draft : ConstructorDraft) : List (List Char × String) :=
  draft.members.filterMap fun m => m.item.name.map fun name => (m.start, name)

/-- Check the members.  An error points at the second use of a field name, or at `start` if it is
not about one field. -/
def check (draft : ConstructorDraft) (start : List Char) : Except Failure Constructor :=
  (Constructor.ofMembers draft.name (draft.members.map (·.item))).mapError fun error =>
    let place := match error with
      | .duplicateField _ field => secondUse field draft.fieldUses
      | _ => none
    .invalid error (place.getD start)

end ConstructorDraft

/-- `C { a :: A, b :: B }`. -/
def recordConstructor : Rule ConstructorDraft := do
  let name ← identifier
  let _ ← symbol openBrace
  let members ← sepBy1 (symbol ",") (located field)
  let _ ← symbol closeBrace
  return ⟨name, members⟩

/-- `C A B`. -/
def positionalConstructor : Rule ConstructorDraft := do
  let name ← identifier
  let members ← many (located member)
  return ⟨name, members⟩

/-- A constructor of either form. -/
def constructorDraft : Rule ConstructorDraft :=
  choice [recordConstructor, positionalConstructor]

/-! ## Declarations -/

/-- `A`. -/
def plainParameter : Rule TypeParameter := do
  return ⟨← identifier, none⟩

/-- `(A :: T)`. -/
def boundedParameter : Rule TypeParameter := do
  let _ ← symbol "("
  let name ← identifier
  let _ ← symbol "::"
  let bound ← typeExpr
  let _ ← symbol ")"
  return ⟨name, some bound⟩

/-- A type parameter of either form. -/
def parameter : Rule TypeParameter :=
  expected "a parameter" (choice [plainParameter, boundedParameter])

/-- A declaration as read, its names not yet checked. -/
structure DeclarationDraft where
  name : String
  parameters : List (Located TypeParameter)
  constructors : List (Located ConstructorDraft)

namespace DeclarationDraft

/-- Where each parameter name is declared. -/
def parameterUses (draft : DeclarationDraft) : List (List Char × String) :=
  draft.parameters.map fun p => (p.start, p.item.name)

/-- Where each constructor name is declared. -/
def constructorUses (draft : DeclarationDraft) : List (List Char × String) :=
  draft.constructors.map fun c => (c.start, c.item.name)

/-- Check the constructors in order, then the declaration.  An error points at the second use of a
name, or at `start` if it is not about one name. -/
def check (draft : DeclarationDraft) (start : List Char) : Except Failure Declaration := do
  let constructors ← draft.constructors.mapM fun c => c.item.check c.start
  (Declaration.ofConstructors draft.name (draft.parameters.map (·.item)) constructors).mapError
    fun error =>
      let place := match error with
        | .duplicateParameter _ name => secondUse name draft.parameterUses
        | .duplicateConstructor _ name => secondUse name draft.constructorUses
        | _ => none
      .invalid error (place.getD start)

end DeclarationDraft

/-- The words and signs of a declaration, up to the end of the text. -/
def declarationDraft : Rule DeclarationDraft := do
  let _ ← keyword "data"
  let name ← identifier
  let parameters ← many (located parameter)
  let _ ← symbol "="
  let constructors ← sepBy1 (symbol "|") (located constructorDraft)
  endOfInput
  return ⟨name, parameters, constructors⟩

/-- A whole declaration, followed by nothing but blanks. -/
def declaration : Rule Declaration :=
  expected "a data declaration" do
    let start := Text.skipBlanks (← get)
    let draft ← declarationDraft
    draft.check start

end Grammar

/-- Read the one declaration that a text holds. -/
def parse (source : String) : Except Failure Declaration :=
  (Grammar.declaration source.toList).map (·.1)

end AlgebraicData
