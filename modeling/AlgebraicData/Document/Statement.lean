import AlgebraicData.Document.Quoted
import AlgebraicData.Document.Validity
import AlgebraicData.Text.Brace

/-!
# TOML documents

    document  := line (newline line)*
    line      := (key "=" value | "[" key "]" | "[[" key "]]")? comment?
    key       := part ("." part)*
    part      := bare characters | string on one line            (at most 80 parts in a key)
    value     := string | scalar | "[" values "]" | "{" pairs "}"

Reading gives the statements of a document in order, and the statements give its top table.
-/

namespace AlgebraicData.Document

open Rule

/-! ## Blanks and comments -/

/-- Spaces and tabs. -/
def spaces : Rule Unit :=
  discard (longest isSpace)

/-- `# …`, up to the end of the line. -/
def comment : Rule Unit := do
  exactly "#"
  discard (longest isTextChar)

/-- Spaces, comments and line breaks between brackets. -/
def filler : Rule Unit :=
  discard (many (choice [discard (satisfy isSpace), discard newline, comment]))

/-! ## Keys -/

/-- A part of a key without quotes. -/
def barePart : Rule (List Char) :=
  many1 (satisfy fun c => c.isAlphanum || c == '_' || c == '-')

/-- How many parts a key may have. -/
def maxParts : Nat :=
  80

/-- A key, as the list of its parts. -/
def key : Rule (List String) := do
  let parts ← sepBy1 (do spaces; exactly "."; spaces) do
    let part ← choice [basicString, literalString, barePart]
    return String.ofList part
  if parts.length ≤ maxParts then return parts else fail "a shorter key"

/-! ## Values -/

/-- A key and its value, over rules for the space around the `=` and for values. -/
def pairOver (space : Rule Unit) (value : Rule Value) : Rule (List String × Value) := do
  let path ← key
  space
  exactly "="
  space
  return (path, ← value)

/-- Items inside brackets, with a comma between them and perhaps one after the last. -/
def items {α : Type} (opening closing : String) (item : Rule α) : Rule (List α) := do
  exactly opening
  filler
  let values ← sepBy (do filler; exactly ","; filler) item
  filler
  if !values.isEmpty then
    let _ ← maybe (exactly ",")
  filler
  exactly closing
  return values

/-- `[ … ]`, over a rule for values. -/
def arrayOver (value : Rule Value) : Rule Value := do
  return .array (← items "[" "]" value)

/-- `{ … }`, over a rule for values.  Lines may break anywhere but inside a key. -/
def inlineTableOver (value : Rule Value) : Rule Value := do
  match Entries.ofPairs? (← items openBrace closeBrace (pairOver filler value)) with
  | some entries => return .table .inline entries
  | none => fail "distinct keys"

/-- A value with brackets inside brackets at most `depth` deep. -/
def value : (depth : Nat) → Rule Value
  | 0 => choice [string, scalar]
  | depth + 1 => choice [string, arrayOver (value depth), inlineTableOver (value depth), scalar]

/-- How deep brackets may nest. -/
def maxDepth : Nat :=
  80

/-! ## Statements -/

/-- What a line of a document says. -/
inductive Statement where
  | pair (path : List String) (value : Value)
  | header (path : List String)
  | elementHeader (path : List String)

/-- `[a.b]` or `[[a.b]]`. -/
def bracketedKey (opening closing : String) : Rule (List String) := do
  exactly opening
  spaces
  let path ← key
  spaces
  exactly closing
  return path

/-- One statement. -/
def statement : Rule Statement :=
  choice [
    do return .elementHeader (← bracketedKey "[[" "]]"),
    do return .header (← bracketedKey "[" "]"),
    do
      let (path, value) ← pairOver spaces (value maxDepth)
      return .pair path value]

/-- A line, with or without a statement. -/
def line : Rule (Option Statement) := do
  spaces
  let statement ← maybe statement
  spaces
  let _ ← maybe comment
  return statement

/-- The statements of a document, which may begin with a byte-order mark. -/
def statements : Rule (List Statement) := do
  let _ ← maybe (exactly "\ufeff")
  let lines ← sepBy1 newline line
  fun rest =>
    if rest.isEmpty then .ok (lines.filterMap id, rest)
    else .error (.mismatch "the end of a line" rest)

/-! ## The top table -/

/-- The top table, and the header under which the next pair stands. -/
structure State where
  header : List String
  entries : Entries

/-- What a statement does. -/
def State.apply (state : State) : Statement → Option State
  | .pair path value => do
    return { state with entries := ← Entries.insertUnder path value state.header state.entries }
  | .header path => do
    return ⟨path, ← Entries.descend Entries.beginTable path state.entries⟩
  | .elementHeader path => do
    return ⟨path, ← Entries.descend Entries.beginElement path state.entries⟩

/-- The top table of a well-formed document, with valid values. -/
def read? (text : String) : Option Entries :=
  match statements text.toList with
  | .ok (list, _) => do
    let state ← list.foldlM State.apply ⟨[], []⟩
    guard (state.entries.all fun (_, value) => value.isValid)
    return state.entries
  | .error _ => none

end AlgebraicData.Document
