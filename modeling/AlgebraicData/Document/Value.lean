import AlgebraicData.Decimal.Binary64

/-!
# TOML values

The values of a TOML document and the rules by which its statements build up the top table: a key is
given once, and a table is extended only in the way it was begun.
-/

namespace AlgebraicData.Document

/-- A floating-point number. -/
inductive Number where
  | finite (negative : Bool) (magnitude : Decimal.Binary64)
  | infinite (negative : Bool)
  /-- Written with digits, but beyond the greatest magnitude. -/
  | tooLarge (negative : Bool)
  | notANumber
deriving DecidableEq, Repr

/-- The number without an exponent. -/
def Number.text : Number → String
  | .finite negative magnitude =>
    let (n, e) := Decimal.shortest magnitude
    (if negative then "-" else "") ++ Decimal.positional n e
  | .infinite negative | .tooLarge negative => if negative then "-inf" else "inf"
  | .notANumber => "NaN"

/-- How a table was begun. -/
inductive TableForm where
  /-- `{ … }`; it is complete. -/
  | inline
  /-- `[a]`. -/
  | header
  /-- Only named on the way to a table inside it, as `a` by `[a.b]`. -/
  | implied
  /-- Made by a dotted key, as `a` by `a.b = 1`. -/
  | dotted
deriving DecidableEq, Repr

/-- A value of a document. -/
inductive Value where
  | string (value : String)
  | integer (value : Int)
  | float (value : Number)
  | boolean (value : Bool)
  | dateTime (text : String)
  | array (items : List Value)
  | table (form : TableForm) (entries : List (String × Value))
  /-- An array of tables, begun by `[[a]]`. -/
  | tables (items : List (List (String × Value)))

/-- The keys and values of a table. -/
abbrev Entries :=
  List (String × Value)

namespace Entries

/-- Give a key another value. -/
def replace (key : String) (value : Value) (entries : Entries) : Entries :=
  entries.map fun (k, v) => if k = key then (k, value) else (k, v)

/-- Change the last table of an array. -/
def changeLast (change : Entries → Option Entries) (items : List Entries) :
    Option (List Entries) := do
  let last ← items.getLast?
  return items.dropLast ++ [← change last]

/-- Put a value at a dotted key.  The last part of the key must be new, and `accepts` tells whether
the table at hand was begun by a dotted key or is where the statement stands. -/
def insert (value : Value) : (accepts : Bool) → (path : List String) → Entries → Option Entries
  | _, [], _ => none
  | accepts, [key], entries =>
    if accepts && (entries.lookup key).isNone then some (entries ++ [(key, value)]) else none
  | _, key :: path, entries =>
    match entries.lookup key with
    | none => do
      let inner ← insert value true path []
      return entries ++ [(key, .table .dotted inner)]
    | some (.table .dotted inner) => do
      return entries.replace key (.table .dotted (← insert value true path inner))
    | some (.table .implied inner) => do
      return entries.replace key (.table .implied (← insert value false path inner))
    | some (.tables items) => do
      return entries.replace key (.tables (← changeLast (insert value false path) items))
    | some _ => none

/-- Put a value at a dotted key of the table that a header names. -/
def insertUnder (path : List String) (value : Value) : (header : List String) → Entries →
    Option Entries
  | [], entries => insert value true path entries
  | key :: header, entries =>
    match entries.lookup key with
    | some (.table form inner) => do
      return entries.replace key (.table form (← insertUnder path value header inner))
    | some (.tables items) => do
      return entries.replace key (.tables (← changeLast (insertUnder path value header) items))
    | _ => none

/-- Follow a header down to its last key, making tables on the way, and change the table there. -/
def descend (change : String → Entries → Option Entries) : (header : List String) → Entries →
    Option Entries
  | [], _ => none
  | [key], entries => change key entries
  | key :: header, entries =>
    match entries.lookup key with
    | none => do
      let inner ← descend change header []
      return entries ++ [(key, .table .implied inner)]
    | some (.table .inline _) => none
    | some (.table form inner) => do
      return entries.replace key (.table form (← descend change header inner))
    | some (.tables items) => do
      return entries.replace key (.tables (← changeLast (descend change header) items))
    | some _ => none

/-- Begin the table `[key]`: the key is new, or only implied so far. -/
def beginTable (key : String) (entries : Entries) : Option Entries :=
  match entries.lookup key with
  | none => some (entries ++ [(key, .table .header [])])
  | some (.table .implied inner) => some (entries.replace key (.table .header inner))
  | some _ => none

/-- Begin the next table of the array `[[key]]`. -/
def beginElement (key : String) (entries : Entries) : Option Entries :=
  match entries.lookup key with
  | none => some (entries ++ [(key, .tables [[]])])
  | some (.tables items) => some (entries.replace key (.tables (items ++ [[]])))
  | some _ => none

/-- The table that a list of dotted keys and values makes. -/
def ofPairs? (pairs : List (List String × Value)) : Option Entries :=
  pairs.foldlM (fun entries (path, value) => insert value true path entries) []

end Entries

end AlgebraicData.Document
