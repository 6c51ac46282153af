import AlgebraicData.Grammar.Rule
import AlgebraicData.Document.Value

/-!
# TOML scalars

The values that are written without quotes or brackets: booleans, integers, floating-point numbers,
dates and times.  Each is read from all the characters of its token.
-/

namespace AlgebraicData.Document

open Rule

/-! ## Digits -/

/-- The value of a hexadecimal digit. -/
def hexValue? (c : Char) : Option Nat :=
  let n := c.toNat
  if 0x30 ≤ n && n ≤ 0x39 then some (n - 0x30)
  else if 0x41 ≤ n && n ≤ 0x46 then some (n - 0x41 + 10)
  else if 0x61 ≤ n && n ≤ 0x66 then some (n - 0x61 + 10)
  else none

/-- The value of a digit in a base up to sixteen. -/
def digitValue? (base : Nat) (c : Char) : Option Nat :=
  (hexValue? c).filter (· < base)

/-- The digits without their separators.  A `_` stands only between two digits. -/
def plainDigits? (base : Nat) : List Char → Option (List Nat)
  | [] => none
  | [c] => (digitValue? base c).map ([·])
  | c :: '_' :: rest => do return (← digitValue? base c) :: (← plainDigits? base rest)
  | c :: rest => do return (← digitValue? base c) :: (← plainDigits? base rest)

/-- The number that digits write. -/
def ofDigits (base : Nat) (digits : List Nat) : Nat :=
  digits.foldl (fun n d => n * base + d) 0

/-- Decimal digits without a leading zero. -/
def wholeDigits? (token : List Char) : Option (List Nat) :=
  (plainDigits? 10 token).filter fun digits => digits.length == 1 || digits.head? != some 0

/-- Split off a sign; the flag tells a minus. -/
def splitSign : List Char → Bool × List Char
  | '+' :: rest => (false, rest)
  | '-' :: rest => (true, rest)
  | token => (false, token)

/-! ## Numbers -/

/-- An integer: decimal with or without a sign, or with a base and no sign. -/
def integer? (token : List Char) : Option Int :=
  match token with
  | '0' :: 'x' :: rest => (plainDigits? 16 rest).map fun digits => (ofDigits 16 digits : Int)
  | '0' :: 'o' :: rest => (plainDigits? 8 rest).map fun digits => (ofDigits 8 digits : Int)
  | '0' :: 'b' :: rest => (plainDigits? 2 rest).map fun digits => (ofDigits 2 digits : Int)
  | _ =>
    let (negative, rest) := splitSign token
    (wholeDigits? rest).map fun digits =>
      if negative then -(ofDigits 10 digits : Int) else ofDigits 10 digits

/-- The exponent of a number, if the text begins with an `e`. -/
def exponent? : List Char → Option Int
  | [] => some 0
  | c :: rest =>
    if c = 'e' || c = 'E' then
      let (negative, rest) := splitSign rest
      (plainDigits? 10 rest).map fun digits =>
        if negative then -(ofDigits 10 digits : Int) else ofDigits 10 digits
    else none

/-- The digits after the point, if the text begins with a point, and what follows them. -/
def fraction? (text : List Char) : Option (List Nat × List Char) :=
  match text with
  | '.' :: rest =>
    let isExponent := fun c => c == 'e' || c == 'E'
    let digits := rest.takeWhile fun c => !isExponent c
    (plainDigits? 10 digits).map fun plain => (plain, rest.drop digits.length)
  | _ => some ([], text)

/-- A floating-point number. -/
def float? (token : List Char) : Option Number :=
  let (negative, unsigned) := splitSign token
  if unsigned = ['i', 'n', 'f'] then some (.infinite negative)
  else if unsigned = ['n', 'a', 'n'] then some .notANumber
  else
    let isWhole := fun c => c != '.' && c != 'e' && c != 'E'
    let whole := unsigned.takeWhile isWhole
    let rest := unsigned.dropWhile isWhole
    if rest.isEmpty then none
    else do
      let digits ← wholeDigits? whole
      let (places, rest) ← fraction? rest
      let exponent ← exponent? rest
      let n := ofDigits 10 (digits ++ places)
      match Decimal.nearest? n (exponent - (places.length : Int)) with
      | some magnitude => return .finite negative magnitude
      | none => return .tooLarge negative

/-! ## Dates and times -/

/-- A number of exactly so many decimal digits. -/
def fixedDigits : (count : Nat) → Rule Nat
  | 0 => return 0
  | count + 1 => do
    let n ← fixedDigits count
    let c ← satisfy Char.isDigit
    return n * 10 + (c.toNat - '0'.toNat)

/-- Fail unless a condition holds. -/
def require (condition : Bool) : Rule Unit :=
  if condition then return () else fail "a date or a time"

/-- The number of days of a month. -/
def daysIn (year month : Nat) : Nat :=
  let leap := year % 4 == 0 && (year % 100 != 0 || year % 400 == 0)
  if month == 2 then (if leap then 29 else 28)
  else if [4, 6, 9, 11].contains month then 30
  else 31

/-- `1979-05-27`. -/
def date : Rule Unit := do
  let year ← fixedDigits 4
  exactly "-"
  let month ← fixedDigits 2
  exactly "-"
  let day ← fixedDigits 2
  require (1 ≤ month && month ≤ 12 && 1 ≤ day && day ≤ daysIn year month)

/-- `07:32` or `07:32:00` or `07:32:00.5`. -/
def time : Rule Unit := do
  let hour ← fixedDigits 2
  exactly ":"
  let minute ← fixedDigits 2
  require (hour ≤ 23 && minute ≤ 59)
  discard <| maybe do
    exactly ":"
    let second ← fixedDigits 2
    require (second ≤ 60)
    maybe do
      exactly "."
      many1 (satisfy Char.isDigit)

/-- `Z` or `+01:00`. -/
def zone : Rule Unit := do
  let sign ← satisfy fun c => ['Z', 'z', '+', '-'].contains c
  if sign == '+' || sign == '-' then
    let hour ← fixedDigits 2
    exactly ":"
    let minute ← fixedDigits 2
    require (hour ≤ 23 && minute ≤ 59)

/-- A date, a time, or both. -/
def dateTime : Rule Unit :=
  choice [
    do
      date
      discard <| maybe do
        let _ ← satisfy fun c => ['T', 't', ' '].contains c
        time
        maybe zone,
    time]

/-- Whether a rule reads the whole text. -/
def readsAll (rule : Rule Unit) (text : List Char) : Bool :=
  match rule text with
  | .ok ((), []) => true
  | _ => false

/-! ## All scalars -/

/-- The value that a token writes. -/
def scalar? (token : List Char) : Option Value :=
  if token = ['t', 'r', 'u', 'e'] then some (.boolean true)
  else if token = ['f', 'a', 'l', 's', 'e'] then some (.boolean false)
  else if readsAll dateTime token then some (.dateTime (String.ofList token))
  else
    match integer? token with
    | some n => some (.integer n)
    | none => (float? token).map .float

/-- Whether the character may stand in the token of a scalar. -/
def isScalarChar (c : Char) : Bool :=
  c.isAlphanum || ['+', '-', '_', '.', ':'].contains c

/-- The token of a scalar.  A date may have a space before its time. -/
def scalarToken : Rule (List Char) := do
  let token ← longest isScalarChar
  let time? ← maybe do
    let _ ← satisfy fun c => c == ' ' && readsAll date token
    let first ← satisfy Char.isDigit
    return first :: (← longest isScalarChar)
  match time? with
  | some time => return token ++ ' ' :: time
  | none => return token

/-- A scalar. -/
def scalar : Rule Value := do
  match scalar? (← scalarToken) with
  | some value => return value
  | none => fail "a value"

end AlgebraicData.Document
