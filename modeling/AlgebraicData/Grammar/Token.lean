import AlgebraicData.Grammar.Rule

/-!
# Tokens

The words and signs a declaration is written with.  Blanks may stand before every token, and a
failure points at the first character after them.
-/

namespace AlgebraicData

namespace Token

/-! ## Characters -/

/-- The signs of the grammar. -/
def signs : List Char :=
  ['|', '=', '(', ')', ':', ',', '{', '}', ';', '[', ']', '-', '>']

/-- Whether the character ends a name. -/
def isPunctuation (c : Char) : Bool :=
  Text.isBlank c || signs.contains c

/-- Whether a name may begin with the character. -/
def isNameFirst (c : Char) : Bool :=
  !c.isDigit && !isPunctuation c

/-- Whether the character may stand in a name after its first. -/
def isNameRest (c : Char) : Bool :=
  !isPunctuation c

/-- Whether the text goes on as a name would. -/
def continuesName : List Char → Bool
  | [] => false
  | c :: _ => isNameRest c

/-! ## Tokens -/

/-- The failure to find a given word or sign. -/
def notFound (token : String) (remaining : List Char) : Failure :=
  .mismatch ("`" ++ token ++ "`") remaining

/-- A name: the longest run of characters that do not end one. -/
def identifier : Rule String :=
  fun input =>
    let text := Text.skipBlanks input
    match text with
    | [] => .error (.mismatch "an identifier" text)
    | c :: _ =>
      if isNameFirst c then
        .ok (String.ofList (text.takeWhile isNameRest), text.dropWhile isNameRest)
      else
        .error (.mismatch "an identifier" text)

/-- A sign such as `::`. -/
def symbol (sign : String) : Rule String :=
  fun input =>
    let text := Text.skipBlanks input
    match Rule.textAfter? sign.toList text with
    | some rest => .ok (sign, rest)
    | none => .error (notFound sign text)

/-- A word that no name character follows. -/
def keyword (word : String) : Rule String :=
  fun input =>
    let text := Text.skipBlanks input
    match Rule.textAfter? word.toList text with
    | some rest => if continuesName rest then .error (notFound word text) else .ok (word, rest)
    | none => .error (notFound word text)

/-- Nothing but blanks is left. -/
def endOfInput : Rule Unit :=
  fun input =>
    match Text.skipBlanks input with
    | [] => .ok ((), [])
    | text => .error (.mismatch "end of input" text)

end Token

end AlgebraicData
