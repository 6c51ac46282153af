import AlgebraicData.Text.Case

/-!
# Casing of names

Names made from other names change the case of the first letter alone, so that `GotData` gives
`gotData`.
-/

namespace AlgebraicData

/-- Replace the first character of a name. -/
def mapFirst (f : Char → List Char) (name : String) : String :=
  match name.toList with
  | [] => ""
  | c :: rest => String.ofList (f c ++ rest)

/-- `Some` gives `some`. -/
def lowerFirst (name : String) : String :=
  mapFirst Text.toLower name

/-- `value0` gives `Value0`. -/
def upperFirst (name : String) : String :=
  mapFirst Text.toUpper name

end AlgebraicData
