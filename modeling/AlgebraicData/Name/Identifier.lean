import AlgebraicData.Text.Number

/-!
# Identifiers of the target language

Which names can stand unquoted in the generated code, how any other name is made into one, and
which words the target language keeps for itself.
-/

namespace AlgebraicData

/-! ## Spelling -/

/-- Whether an identifier may begin with the character. -/
def isIdentifierFirst (c : Char) : Bool :=
  Text.isAlphabetic c || c == '_' || c == '$'

/-- Whether the character may stand in an identifier after its first. -/
def isIdentifierRest (c : Char) : Bool :=
  Text.isAlphanumeric c || c == '_' || c == '$'

/-- Whether the characters spell an identifier. -/
def spellsIdentifier : List Char → Bool
  | [] => false
  | c :: rest => isIdentifierFirst c && rest.all isIdentifierRest

/-- Whether a name can stand unquoted as a property or a binding. -/
def isIdentifier (name : String) : Bool :=
  spellsIdentifier name.toList

/-- What stands for the character in a repaired name. -/
def repairChar (c : Char) : Char :=
  if Text.isAlphanumeric c || c == '$' then c else '_'

/-- Put `_` in front unless an identifier may begin this way. -/
def guardFirst : List Char → List Char
  | [] => ['_']
  | c :: rest => if isIdentifierFirst c then c :: rest else '_' :: c :: rest

/-- The name itself if it is an identifier; else every foreign character becomes `_`, and a front
that cannot begin an identifier gets a `_` before it. -/
def identifierName (name : String) : String :=
  if isIdentifier name then name
  else String.ofList (guardFirst (name.toList.map repairChar))

/-! ## Reserved words -/

/-- The words that no binding may use. -/
def reservedWords : List String := [
  "break", "case", "catch", "class", "const", "continue", "debugger", "default", "delete", "do",
  "else", "enum", "export", "extends", "false", "finally", "for", "function", "if", "import",
  "in", "instanceof", "new", "null", "return", "super", "switch", "this", "throw", "true", "try",
  "typeof", "var", "void", "while", "with", "implements", "interface", "let", "package",
  "private", "protected", "public", "static", "yield", "await"]

/-- Whether the target language keeps the word for itself. -/
def isReserved (name : String) : Bool :=
  reservedWords.contains name

/-- The name as a binding: a reserved word gets a trailing `_`. -/
def bindingName (name : String) : String :=
  if isReserved name then name ++ "_" else name

end AlgebraicData
