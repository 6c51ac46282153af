/-!
# Places in a text

A place is counted in bytes of the UTF-8 encoding for programs, and in lines and columns for
people.  Lines and columns start at one, and a column is one character.
-/

namespace AlgebraicData.Text

/-- The number of bytes of the UTF-8 encoding. -/
def byteLength (cs : List Char) : Nat :=
  cs.foldr (fun c bytes => c.utf8Size + bytes) 0

/-- The characters before byte `offset`, unless the offset falls inside a character or beyond the
end. -/
def takeBytes? : Nat → List Char → Option (List Char)
  | 0, _ => some []
  | _ + 1, [] => none
  | offset, c :: cs =>
    if c.utf8Size ≤ offset then (takeBytes? (offset - c.utf8Size) cs).map (c :: ·) else none

/-- A place for people to read. -/
structure Position where
  line : Nat
  column : Nat
deriving DecidableEq, Repr

/-- The place right after the characters `before`. -/
def Position.after (before : List Char) : Position where
  line := before.count '\n' + 1
  column := (before.reverse.takeWhile (· ≠ '\n')).length + 1

end AlgebraicData.Text
