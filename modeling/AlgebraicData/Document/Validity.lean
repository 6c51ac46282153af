import AlgebraicData.Document.Scalar

/-!
# Valid values

Values that are well-formed and still refused.  Integers have 64 bits, and a floating-point number
has a greatest magnitude.  A table spells a date-time if `dateTimeKey` is the first of its keys in
order; that key then holds the text of a date-time, and the other keys do not count.
-/

namespace AlgebraicData.Document

/-- Whether an integer has 64 bits. -/
def inRange (n : Int) : Bool :=
  -Int.pow 2 63 ≤ n && n < Int.pow 2 63

/-- The key under which a table spells a date-time. -/
def dateTimeKey : String :=
  "$__toml_private_datetime"

/-- What a table that spells a date-time holds for it. -/
def Entries.spelledDateTime? (entries : Entries) : Option Value :=
  if entries.any fun (key, _) => key < dateTimeKey then none else entries.lookup dateTimeKey

/-- Whether a value is the text of a date-time. -/
def Value.isDateTimeText : Value → Bool
  | .string text => readsAll Document.dateTime text.toList
  | _ => false

/-- Whether a table below the top is valid, given whether all its values are. -/
def Entries.isValid (entries : Entries) (valuesAreValid : Bool) : Bool :=
  match entries.spelledDateTime? with
  | some value => value.isDateTimeText
  | none => valuesAreValid

mutual

/-- Whether a value inside the top table is valid. -/
def Value.isValid : Value → Bool
  | .integer n => inRange n
  | .float (.tooLarge _) => false
  | .array items => itemsAreValid items
  | .table _ entries => Entries.isValid entries (entriesAreValid entries)
  | .tables items => tablesAreValid items
  | _ => true

/-- Whether the items of an array are valid. -/
def itemsAreValid : List Value → Bool
  | [] => true
  | item :: items => item.isValid && itemsAreValid items

/-- Whether the values of a table are valid. -/
def entriesAreValid : List (String × Value) → Bool
  | [] => true
  | (_, value) :: entries => value.isValid && entriesAreValid entries

/-- Whether the tables of an array are valid. -/
def tablesAreValid : List (List (String × Value)) → Bool
  | [] => true
  | entries :: items => Entries.isValid entries (entriesAreValid entries) && tablesAreValid items

end

end AlgebraicData.Document
