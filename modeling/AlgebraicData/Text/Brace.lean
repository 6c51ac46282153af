/-!
# Braces

Declarations, documents and the code that is written all put parts of theirs in braces.
-/

namespace AlgebraicData

/-- The brace that opens a block. -/
abbrev openBrace : String :=
  "\x7b"

/-- The brace that closes a block. -/
abbrev closeBrace : String :=
  "\x7d"

/-- `{ content }`. -/
def inBraces (content : String) : String :=
  openBrace ++ " " ++ content ++ " " ++ closeBrace

end AlgebraicData
