import Psych.Text.Strings

/-!
# The tokens of JSON

What `ParseToken` finds at a position of the text. A position is the rest of the text from there
on, and reading at its end yields the terminator. A token holds the `length` characters from its
`begin`.
-/

namespace Psych

/-- `JSONReader::Token::Type`. -/
inductive JsonTokenType where
  | objectBegin
  | objectEnd
  | arrayBegin
  | arrayEnd
  | string
  | number
  | boolTrue
  | boolFalse
  | nullToken
  | listSeparator
  | objectPairSeparator
  | endOfInput
  | invalidToken
deriving DecidableEq

structure JsonToken where
  type : JsonTokenType
  text : Text
deriving DecidableEq

/-- `CreateInvalidToken`. -/
def JsonToken.invalid : JsonToken := ⟨.invalidToken, []⟩

/-! ## White space and comments -/

/-- The loop a character is read in: the one of `EatWhitespaceAndComments`, or one of the two of
`EatComment`. -/
inductive Eating where
  | whitespace
  | lineComment
  | blockComment
deriving DecidableEq

def isJsonSpace (c : Char) : Bool := c == ' ' || c == '\n' || c == '\r' || c == '\t'

def isLineEnd (c : Char) : Bool := c == '\n' || c == '\r'

/-- Where the loops come to rest. A comment that is not closed ends with the text. -/
def eatFrom : Eating → Text → Text
  | _, [] => []
  | .whitespace, c :: s =>
    if isJsonSpace c then eatFrom .whitespace s
    else if c = '/' then
      match s with
      | [] => [c]
      | d :: s =>
        if d = '/' then eatFrom .lineComment s
        else if d = '*' then eatFrom .blockComment s
        else c :: d :: s
    else c :: s
  | .lineComment, c :: s => eatFrom (if isLineEnd c then .whitespace else .lineComment) s
  | .blockComment, c :: s =>
    match s with
    | [] => []
    | d :: s =>
      if c = '*' ∧ d = '/' then eatFrom .whitespace s else eatFrom .blockComment (d :: s)

def eatWhitespaceAndComments (s : Text) : Text := eatFrom .whitespace s

/-! ## Numbers -/

/-- The digits `ReadInt` reads, and the text after them. -/
def readInt (canHaveLeadingZeros : Bool) (s : Text) : Option (Text × Text) :=
  let digits := s.takeWhile Char.isDigit
  if digits.length = 0 then none
  else if !canHaveLeadingZeros && decide (1 < digits.length) && digits.head? == some '0' then none
  else some (digits, s.dropWhile Char.isDigit)

/-- A character that is one of `accepted`, if it is the next one. -/
def readOptional (accepted : Char → Bool) : Text → Text × Text
  | [] => ([], [])
  | c :: s => if accepted c then ([c], s) else ([], c :: s)

/-- The fraction, from the `.` on. -/
def readFraction (s : Text) : Option (Text × Text) :=
  match readOptional (· == '.') s with
  | ([], s) => some ([], s)
  | (point, s) => (readInt true s).map fun (digits, s) => (point ++ digits, s)

/-- The exponent, from the `e` on. -/
def readExponent (s : Text) : Option (Text × Text) :=
  match readOptional (fun c => c == 'e' || c == 'E') s with
  | ([], s) => some ([], s)
  | (e, s) =>
    let (sign, s) := readOptional (fun c => c == '-' || c == '+') s
    (readInt true s).map fun (digits, s) => (e ++ sign ++ digits, s)

/-- The number at the start of a text, by its parts. -/
def readNumber (s : Text) : Option Text := do
  let (minus, s) := readOptional (· == '-') s
  let (int, s) ← readInt false s
  let (fraction, s) ← readFraction s
  let (exponent, _) ← readExponent s
  some (minus ++ int ++ fraction ++ exponent)

def parseNumberToken (s : Text) : JsonToken :=
  match readNumber s with
  | none => .invalid
  | some number => ⟨.number, number⟩

/-! ## Strings -/

/-- `IsHexDigit`. -/
def isHexDigit (c : Char) : Bool :=
  ('0' ≤ c && c ≤ '9') || ('A' ≤ c && c ≤ 'F') || ('a' ≤ c && c ≤ 'f')

/-- The characters after a backslash that stand for one character. -/
def isSimpleEscape (c : Char) : Bool := "\\/bfnrtv\"".toList.contains c

/-- What `ParseStringToken` comes to after the opening quote. -/
inductive ScannedString where
  /-- The characters up to the closing quote. -/
  | body (text : Text)
  | unterminated
  /-- `JSON_INVALID_ESCAPE`, with its position. -/
  | invalidEscape (errorPos : Text)
deriving DecidableEq

def ScannedString.after (read : Text) : ScannedString → ScannedString
  | .body text => .body (read ++ text)
  | .unterminated => .unterminated
  | .invalidEscape errorPos => .invalidEscape errorPos

def scanString : Text → ScannedString
  | [] => .unterminated
  | c :: s =>
    if c = '\\' then
      match s with
      | [] => .invalidEscape []
      | e :: s =>
        if e = 'x' then
          match s with
          | h₁ :: h₂ :: s =>
            if [h₁, h₂].all isHexDigit then (scanString s).after [c, e, h₁, h₂]
            else .invalidEscape (e :: h₁ :: h₂ :: s)
          | s => .invalidEscape (e :: s)
        else if e = 'u' then
          match s with
          | h₁ :: h₂ :: h₃ :: h₄ :: s =>
            if [h₁, h₂, h₃, h₄].all isHexDigit then (scanString s).after [c, e, h₁, h₂, h₃, h₄]
            else .invalidEscape (e :: h₁ :: h₂ :: h₃ :: h₄ :: s)
          | s => .invalidEscape (e :: s)
        else if isSimpleEscape e then (scanString s).after [c, e]
        else .invalidEscape (e :: s)
    else if c = '"' then .body []
    else (scanString s).after [c]

/-- The token, and the position of the error if the reader is to set one. -/
def parseStringToken (s : Text) : JsonToken × Option Text :=
  match scanString s.tail with
  | .body text => (⟨.string, '"' :: text ++ ['"']⟩, none)
  | .unterminated => (.invalid, none)
  | .invalidEscape errorPos => (.invalid, some errorPos)

/-! ## All tokens -/

/-- `NextStringMatch`. -/
def keywordToken (s : Text) (keyword : String) (type : JsonTokenType) : JsonToken :=
  if keyword.toList.isPrefixOf s then ⟨type, keyword.toList⟩ else .invalid

def punctuation (c : Char) : Option JsonTokenType :=
  if c = '[' then some .arrayBegin
  else if c = ']' then some .arrayEnd
  else if c = ',' then some .listSeparator
  else if c = '{' then some .objectBegin
  else if c = '}' then some .objectEnd
  else if c = ':' then some .objectPairSeparator
  else none

/-- The `switch` of `ParseToken`, on the text after white space and comments. -/
def tokenAt : Text → JsonToken × Option Text
  | [] => (⟨.endOfInput, []⟩, none)
  | c :: s =>
    if c = '\x00' then (⟨.endOfInput, []⟩, none)
    else if c = 'n' then (keywordToken (c :: s) "null" .nullToken, none)
    else if c = 't' then (keywordToken (c :: s) "true" .boolTrue, none)
    else if c = 'f' then (keywordToken (c :: s) "false" .boolFalse, none)
    else if c = '"' then parseStringToken (c :: s)
    else if c.isDigit || c == '-' then (parseNumberToken (c :: s), none)
    else
      match punctuation c with
      | some type => (⟨type, [c]⟩, none)
      | none => (.invalid, none)

end Psych
