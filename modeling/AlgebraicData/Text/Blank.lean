import AlgebraicData.Text.Ranges

/-!
# Blank characters

The Unicode property `White_Space`.  Blanks separate the tokens of a declaration and mean nothing
else.
-/

namespace AlgebraicData.Text

/-- The code points with the property `White_Space`, in increasing order. -/
def blankRanges : List (Nat × Nat) := [
  (0x9, 0xD), (0x20, 0x20), (0x85, 0x85), (0xA0, 0xA0), (0x1680, 0x1680), (0x2000, 0x200A),
  (0x2028, 0x2029), (0x202F, 0x202F), (0x205F, 0x205F), (0x3000, 0x3000)]

/-- Whether a character only separates others. -/
def isBlank (c : Char) : Bool :=
  inRanges blankRanges c.toNat

/-- The text from its first significant character on. -/
def skipBlanks (cs : List Char) : List Char :=
  cs.dropWhile isBlank

end AlgebraicData.Text
