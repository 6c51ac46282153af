import AlgebraicData.Grammar.Rule
import AlgebraicData.Document.Scalar

/-!
# TOML strings

Basic strings stand in double quotes and have escapes, literal strings stand in single quotes and
have none; three quotes in a row let either run over several lines.
-/

namespace AlgebraicData.Document

open Rule

/-! ## Characters -/

/-- Whether the character may stand in a comment or a string: no control but the tab. -/
def isTextChar (c : Char) : Bool :=
  let n := c.toNat
  n == 0x9 || (0x20 ≤ n && n != 0x7F)

/-- The end of a line, as it is written. -/
def newline : Rule (List Char) :=
  choice [do exactly "\n"; return ['\n'], do exactly "\r\n"; return ['\r', '\n']]

/-- Spaces and tabs. -/
def isSpace (c : Char) : Bool :=
  c == ' ' || c == '\t'

/-! ## Escapes -/

/-- A number of exactly so many hexadecimal digits. -/
def fixedHex : (count : Nat) → Rule Nat
  | 0 => return 0
  | count + 1 => do
    let n ← fixedHex count
    let c ← satisfy fun c => (hexValue? c).isSome
    return n * 16 + (hexValue? c).getD 0

/-- The character with a code point of so many hexadecimal digits. -/
def codePoint (count : Nat) : Rule Char := do
  let n ← fixedHex count
  if n.isValidChar then return Char.ofNat n else fail "a code point"

/-- The characters that a one-letter escape stands for. -/
def letterEscapes : List (Char × Char) := [
  ('b', '\x08'), ('t', '\t'), ('n', '\n'), ('f', '\x0c'), ('r', '\r'), ('e', '\x1b'),
  ('"', '"'), ('\\', '\\')]

/-- An escape in a basic string. -/
def escape : Rule Char := do
  exactly "\\"
  let c ← satisfy fun _ => true
  if c == 'x' then codePoint 2
  else if c == 'u' then codePoint 4
  else if c == 'U' then codePoint 8
  else
    match letterEscapes.lookup c with
    | some value => return value
    | none => fail "an escape"

/-! ## Strings on one line -/

/-- `"…"`. -/
def basicString : Rule (List Char) := do
  exactly "\""
  let text ← many (choice [satisfy fun c => isTextChar c && c != '"' && c != '\\', escape])
  exactly "\""
  return text

/-- `'…'`. -/
def literalString : Rule (List Char) := do
  exactly "'"
  let text ← longest fun c => isTextChar c && c != '\''
  exactly "'"
  return text

/-! ## Strings on several lines -/

/-- One or two quotes inside a string; more of them end it. -/
def innerQuotes (quote : Char) : Rule (List Char) := do
  let quotes ← longest (· == quote)
  if quotes.length == 1 || quotes.length == 2 then return quotes else fail "text"

/-- The quotes that end a string.  Up to two more before the last three belong to the text. -/
def closingQuotes (quote : Char) : Rule (List Char) :=
  fun input =>
    let count := min 5 (input.takeWhile (· == quote)).length
    if 3 ≤ count then .ok (List.replicate (count - 3) quote, input.drop count)
    else .error (.mismatch "the end of a string" input)

/-- A line break that a backslash hides, with all the blank space after it. -/
def hiddenBreak : Rule (List Char) := do
  exactly "\\"
  let _ ← longest isSpace
  let _ ← newline
  let _ ← many (choice [newline, do return [← satisfy isSpace]])
  return []

/-- A string of several lines, made of pieces.  A line break right after the opening is dropped. -/
def multiline (quote : Char) (piece : Rule (List Char)) : Rule (List Char) := do
  exactly (String.ofList [quote, quote, quote])
  let _ ← maybe newline
  let pieces ← many (choice [newline, innerQuotes quote, piece])
  let last ← closingQuotes quote
  return pieces.flatten ++ last

/-- `"""…"""`. -/
def multilineBasicString : Rule (List Char) :=
  multiline '"' (choice [
    do return [← satisfy fun c => isTextChar c && c != '"' && c != '\\'],
    hiddenBreak,
    do return [← escape]])

/-- `'''…'''`. -/
def multilineLiteralString : Rule (List Char) :=
  multiline '\'' (do return [← satisfy fun c => isTextChar c && c != '\''])

/-- Any string. -/
def string : Rule Value := do
  let text ← choice [multilineBasicString, multilineLiteralString, basicString, literalString]
  return .string (String.ofList text)

end AlgebraicData.Document
