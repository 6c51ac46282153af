import AlgebraicData.Grammar.Failure
import AlgebraicData.Text.Blank

/-!
# Rules

A rule reads a value off the front of a text and leaves the rest, or fails.  Rules are combined as a
grammar combines its constructs: one after another (`do`), by choice, by repetition, and by
starting over inside themselves.

Repetition and recursion are total for every rule: a repetition ends as soon as a round reads
nothing, and a recursive rule may start over only on a text that has become shorter.
-/

namespace AlgebraicData

/-- Reads a value off the front of a text. -/
abbrev Rule (α : Type) :=
  StateT (List Char) (Except Failure) α

namespace Rule

variable {α β : Type}

/-- Fail at the front of the text. -/
def fail (expected : String) : Rule α :=
  fun input => .error (.mismatch expected input)

/-- What follows `word` in a text that begins with it. -/
def textAfter? : (word text : List Char) → Option (List Char)
  | [], text => some text
  | _ :: _, [] => none
  | c :: word, d :: text => if c = d then textAfter? word text else none

/-- The given characters, with nothing skipped before them. -/
def exactly (word : String) : Rule Unit :=
  fun input =>
    match textAfter? word.toList input with
    | some rest => .ok ((), rest)
    | none => .error (.mismatch word input)

/-- One character that satisfies a test. -/
def satisfy (test : Char → Bool) : Rule Char
  | [] => .error (.mismatch "a character" [])
  | c :: rest => if test c then .ok (c, rest) else .error (.mismatch "a character" (c :: rest))

/-- The longest run of characters that satisfy a test; it may be empty. -/
def longest (test : Char → Bool) : Rule (List Char) :=
  fun input => .ok (input.takeWhile test, input.dropWhile test)

/-- Name the construct that `rule` reads: its failures say that the construct was looked for. -/
def expected (label : String) (rule : Rule α) : Rule α :=
  fun input => (rule input).mapError (·.relabel label)

/-! ## Choice -/

/-- The first rule that succeeds; else the failure that got further. -/
def either (first second : Rule α) : Rule α :=
  fun input =>
    match first input with
    | .ok success => .ok success
    | .error failure => (second input).mapError failure.furthest

/-- The first alternative that succeeds; else the failure that got furthest, the last such if there
are several. -/
def choice : List (Rule α) → Rule α
  | [] => fail "an alternative"
  | rule :: rules => rules.foldl either rule

/-- The value of `rule`, or nothing where it fails. -/
def maybe (rule : Rule α) : Rule (Option α) :=
  fun input =>
    match rule input with
    | .ok (value, rest) => .ok (some value, rest)
    | .error _ => .ok (none, input)

/-! ## Repetition -/

/-- Read values as long as `rule` succeeds.  A round that reads nothing is the last one. -/
def collect (rule : Rule α) (input : List Char) : List α × List Char :=
  match rule input with
  | .error _ => ([], input)
  | .ok (value, rest) =>
    if rest.length < input.length then
      let (values, rest) := collect rule rest
      (value :: values, rest)
    else
      ([value], input)
termination_by input.length

/-- Any number of values. -/
def many (rule : Rule α) : Rule (List α) :=
  fun input => .ok (collect rule input)

/-- One value or more. -/
def many1 (rule : Rule α) : Rule (List α) := do
  let first ← rule
  return first :: (← many rule)

/-- One value or more, with `separator` between them. -/
def sepBy1 (separator : Rule β) (rule : Rule α) : Rule (List α) := do
  let first ← rule
  return first :: (← many (do let _ ← separator; rule))

/-- Any number of values, with `separator` between them. -/
def sepBy (separator : Rule β) (rule : Rule α) : Rule (List α) :=
  fun input =>
    match sepBy1 separator rule input with
    | .ok success => .ok success
    | .error _ => .ok ([], input)

/-! ## Recursion -/

/-- The rule whose definition `body` starts the rule over.  Starting over fails unless something has
been read since the rule began. -/
def recursive (body : Rule α → Rule α) (input : List Char) : Except Failure (α × List Char) :=
  body (fun rest =>
    if rest.length < input.length then recursive body rest
    else fail "a shorter text" rest) input
termination_by input.length

/-! ## Places -/

/-- A value together with the text it was read from. -/
structure Located (α : Type) where
  /-- The text from the first character of the value on. -/
  start : List Char
  item : α

/-- Remember where a value starts. -/
def located (rule : Rule α) : Rule (Located α) := do
  modify Text.skipBlanks
  let start ← get
  let item ← rule
  return ⟨start, item⟩

end Rule

end AlgebraicData
