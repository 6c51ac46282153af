import AlgebraicData.Text.Visible

/-!
# Quoted excerpts

A message shows an excerpt of a text between double quotes, on one line, so that every character of
the excerpt can be told: the quote, the backslash and the usual controls have two-character escapes,
and any other character that leaves no mark is shown by its code point.
-/

namespace AlgebraicData.Text

/-- A code point in lower-case hexadecimal, as in `\u{7f}`. -/
def codePointEscape (c : Char) : List Char :=
  '\\' :: 'u' :: '{' :: (Nat.toDigits 16 c.toNat ++ ['}'])

/-- The characters that stand for `c` inside an excerpt. -/
def escapeChar (c : Char) : List Char :=
  if c = '"' then ['\\', '"']
  else if c = '\\' then ['\\', '\\']
  else if c = '\n' then ['\\', 'n']
  else if c = '\r' then ['\\', 'r']
  else if c = '\t' then ['\\', 't']
  else if c = '\x00' then ['\\', '0']
  else if isVisible c then [c]
  else codePointEscape c

/-- An excerpt as a message shows it. -/
def excerpt (cs : List Char) : String :=
  String.ofList ('"' :: (cs.flatMap escapeChar ++ ['"']))

end AlgebraicData.Text
