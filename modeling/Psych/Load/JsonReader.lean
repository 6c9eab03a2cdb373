import Mathlib.Data.Char
import Psych.Library.OrderedMap
import Psych.Load.JsonTokens
import Psych.Text.Numbers

/-!
# Reading JSON

`JSONReader`: the value a text denotes, or the error that the reader is left with. What a
configuration is read from is the value of a file (`Read`), with no trailing commas.
-/

namespace Psych

/-! ## Errors -/

inductive JsonParseError where
  | noError
  | badRootElementType
  | invalidEscape
  | syntaxError
  | trailingComma
  | tooMuchNesting
  | unexpectedDataAfterRoot
  | unsupportedEncoding
  | unquotedDictionaryKey
deriving DecidableEq

/-- `ErrorCodeToString`. -/
def JsonParseError.text : JsonParseError → Text
  | .noError => []
  | .badRootElementType => "Root value must be an array or object.".toList
  | .invalidEscape => "Invalid escape sequence.".toList
  | .syntaxError => "Syntax error.".toList
  | .trailingComma => "Trailing comma not allowed.".toList
  | .tooMuchNesting => "Too much nesting.".toList
  | .unexpectedDataAfterRoot => "Unexpected data after root element.".toList
  | .unsupportedEncoding => "Unsupported encoding. JSON must be UTF-8.".toList
  | .unquotedDictionaryKey => "Dictionary keys must be quoted.".toList

/-- The line and column one character on. -/
def nextPosition (position : Nat × Nat) (c : Char) : Nat × Nat :=
  if c = '\n' then (position.1 + 1, 1) else (position.1, position.2 + 1)

structure JsonReader where
  /-- `start_pos_`, up to `end_pos_`. -/
  startPos : Text
  /-- `json_pos_`, up to `end_pos_`. -/
  jsonPos : Text
  allowTrailingComma : Bool
  errorCode : JsonParseError
  errorLine : Nat
  errorCol : Nat

/-- `SetErrorCode`. -/
def JsonReader.setErrorCode (reader : JsonReader) (error : JsonParseError) (errorPos : Text) :
    JsonReader :=
  let before := reader.startPos.take (reader.startPos.length - errorPos.length)
  let position := before.foldl nextPosition (1, 1)
  { reader with errorCode := error, errorLine := position.1, errorCol := position.2 }

/-- How the reader fails. -/
inductive JsonFailure where
  /-- `NULL`, with what the reader is left with. -/
  | null (reader : JsonReader)
  /-- `std::out_of_range` of `std::stod`, which nothing catches. -/
  | outOfRange
  /-- A loop went on for more turns than the text has characters. -/
  | endless

/-! ## Tokens -/

def JsonReader.moveTo (reader : JsonReader) (s : Text) : JsonReader := { reader with jsonPos := s }

/-- `json_pos_ += token.length`. -/
def JsonReader.advance (reader : JsonReader) (token : JsonToken) : JsonReader :=
  reader.moveTo (reader.jsonPos.drop token.text.length)

def JsonReader.parseToken (reader : JsonReader) : JsonToken × JsonReader :=
  let reader := reader.moveTo (eatWhitespaceAndComments reader.jsonPos)
  match tokenAt reader.jsonPos with
  | (token, none) => (token, reader)
  | (token, some errorPos) => (token, reader.setErrorCode .invalidEscape errorPos)

/-! ## Values of tokens -/

/-- `Value`; a `double` is kept as the text it is read from. -/
inductive JsonNode where
  | null
  | boolean (b : Bool)
  | integer (n : Int)
  | double (literal : Text)
  | string (s : Text)
  | list (l : List JsonNode)
  | dictionary (d : List (Text × JsonNode))

/-- What `StringToDouble` comes to on a number. -/
inductive Stod where
  /-- A finite value. -/
  | finite
  /-- `false`, or a value that is not finite. -/
  | refused
  /-- `std::stod` throws. -/
  | outOfRange
deriving DecidableEq

def decodeNumber (stod : Text → Stod) (token : JsonToken) (reader : JsonReader) :
    Except JsonFailure JsonNode :=
  match stringToInt token.text with
  | some n => .ok (.integer n)
  | none =>
    match stod token.text with
    | .finite => .ok (.double token.text)
    | .refused => .error (.null reader)
    | .outOfRange => .error .outOfRange

/-- The character an escape sequence stands for; `\u` is not one of those that are decoded. -/
def simpleEscape (c : Char) : Option Char :=
  if c = '"' ∨ c = '/' ∨ c = '\\' then some c
  else if c = 'b' then some '\x08'
  else if c = 'f' then some '\x0c'
  else if c = 'n' then some '\n'
  else if c = 'r' then some '\r'
  else if c = 't' then some '\t'
  else if c = 'v' then some '\x0b'
  else none

/-- The loop of `DecodeString`, over what is between the quotes. -/
def decodeBody : Text → Option Text
  | [] => some []
  | c :: s =>
    if c = '\\' then
      match s with
      | [] => none
      | e :: s =>
        if e = 'x' then
          match s with
          | h₁ :: h₂ :: s =>
            match hexStringToInt [h₁, h₂] with
            | none => none
            | some hexDigit => (decodeBody s).map (Char.ofNat hexDigit.toNat :: ·)
          | _ => none
        else
          match simpleEscape e with
          | none => none
          | some d => (decodeBody s).map (d :: ·)
    else (decodeBody s).map (c :: ·)

def decodeString (token : JsonToken) : Option Text := decodeBody (token.text.drop 1).dropLast

/-! ## Values -/

def kStackLimit : Nat := 100

section BuildValue

variable {α : Type}

/-- The loop over the members of an array or an object, up to the token that closes it. -/
def buildMembers (buildMember : JsonToken → JsonReader → Except JsonFailure (α × JsonReader))
    (close : JsonTokenType) :
    Nat → JsonToken → JsonReader → Except JsonFailure (List α × JsonToken × JsonReader)
  | turns, token, reader =>
    if token.type = close then .ok ([], token, reader)
    else
      match turns with
      | 0 => .error .endless
      | turns + 1 => do
        let (member, reader) ← buildMember token reader
        let (token, reader) := reader.parseToken
        if token.type = .listSeparator then
          let (token, reader) := (reader.advance token).parseToken
          if token.type = close then
            -- The comma was the last one.
            if reader.allowTrailingComma then .ok ([member], token, reader)
            else .error (.null (reader.setErrorCode .trailingComma reader.jsonPos))
          else
            let (members, token, reader) ← buildMembers buildMember close turns token reader
            .ok (member :: members, token, reader)
        else if token.type = close then
          let (members, token, reader) ← buildMembers buildMember close turns token reader
          .ok (member :: members, token, reader)
        else .error (.null reader)

/-- An array or an object, from the token after the one that opens it. -/
def buildContainer (buildMember : JsonToken → JsonReader → Except JsonFailure (α × JsonReader))
    (close : JsonTokenType) (value : List α → JsonNode) (reader : JsonReader) :
    Except JsonFailure (JsonNode × JsonReader) := do
  let (token, reader) := reader.parseToken
  let (members, token, reader) ←
    buildMembers buildMember close (reader.jsonPos.length + 1) token reader
  .ok (value members, reader.advance token)

/-- A key and its value. -/
def buildPair (buildValue : JsonReader → Except JsonFailure (α × JsonReader)) (token : JsonToken)
    (reader : JsonReader) : Except JsonFailure ((Text × α) × JsonReader) :=
  if token.type ≠ .string then
    .error (.null (reader.setErrorCode .unquotedDictionaryKey reader.jsonPos))
  else
    match decodeString token with
    | none => .error (.null reader)
    | some dictKey =>
      let (token, reader) := (reader.advance token).parseToken
      if token.type ≠ .objectPairSeparator then .error (.null reader)
      else do
        let (_, reader) := (reader.advance token).parseToken
        let (dictValue, reader) ← buildValue reader
        .ok ((dictKey, dictValue), reader)

end BuildValue

/-- `BuildValue`, where `stack_depth_` is `kStackLimit` less the levels that are left. -/
def buildValue (stod : Text → Stod) : Nat → Bool → JsonReader →
    Except JsonFailure (JsonNode × JsonReader)
  | 0, _, reader => .error (.null (reader.setErrorCode .tooMuchNesting reader.jsonPos))
  | levels + 1, isRoot, reader =>
    let (token, reader) := reader.parseToken
    if isRoot = true ∧ token.type ≠ .objectBegin ∧ token.type ≠ .arrayBegin then
      .error (.null (reader.setErrorCode .badRootElementType reader.jsonPos))
    else
      match token.type with
      | .nullToken => .ok (.null, reader.advance token)
      | .boolTrue => .ok (.boolean true, reader.advance token)
      | .boolFalse => .ok (.boolean false, reader.advance token)
      | .number => do
        let node ← decodeNumber stod token reader
        .ok (node, reader.advance token)
      | .string =>
        match decodeString token with
        | none => .error (.null reader)
        | some s => .ok (.string s, reader.advance token)
      | .arrayBegin =>
        buildContainer (fun _ reader => buildValue stod levels false reader) .arrayEnd .list
          (reader.advance token)
      | .objectBegin =>
        buildContainer (buildPair fun reader => buildValue stod levels false reader) .objectEnd
          (fun members => .dictionary (OrderedMap.lasts members)) (reader.advance token)
      | _ => .error (.null reader)

/-! ## Documents -/

/-- The text without a byte order mark. -/
def withoutByteOrderMark : Text → Text
  | '\xef' :: '\xbb' :: '\xbf' :: s => s
  | s => s

/-- The reader before the first character. -/
def JsonReader.start (json : Text) (allowTrailingComma : Bool) : JsonReader where
  startPos := withoutByteOrderMark json
  jsonPos := withoutByteOrderMark json
  allowTrailingComma := allowTrailingComma
  errorCode := .noError
  errorLine := 0
  errorCol := 0

/-- Errors that have no code are syntax errors. -/
def JsonReader.withErrorCode (reader : JsonReader) : JsonReader :=
  if reader.errorCode = .noError then reader.setErrorCode .syntaxError reader.jsonPos else reader

def jsonToValue (stod : Text → Stod) (json : Text) (checkRoot allowTrailingComma : Bool) :
    Except JsonFailure (JsonNode × JsonReader) :=
  match buildValue stod kStackLimit checkRoot (.start json allowTrailingComma) with
  | .error (.null reader) => .error (.null reader.withErrorCode)
  | .error failure => .error failure
  | .ok (root, reader) =>
    let (token, reader) := reader.parseToken
    if token.type = .endOfInput then .ok (root, reader)
    else
      .error (.null (reader.setErrorCode .unexpectedDataAfterRoot reader.jsonPos).withErrorCode)

/-- `FormatErrorMessage`. -/
def formatErrorMessage (line column : Nat) (description : Text) : Text :=
  if line ≠ 0 ∨ column ≠ 0 then
    "Line: ".toList ++ (Nat.repr line).toList ++ ", column: ".toList ++
      (Nat.repr column).toList ++ ", ".toList ++ description
  else description

/-- `GetErrorMessage`. -/
def JsonReader.errorMessage (reader : JsonReader) : Text :=
  formatErrorMessage reader.errorLine reader.errorCol reader.errorCode.text

/-- `ReadAndReturnError`, with the code and the message. -/
def readAndReturnError (stod : Text → Stod) (json : Text) (allowTrailingComma : Bool) :
    Except (Option (JsonParseError × Text)) JsonNode :=
  match jsonToValue stod json true allowTrailingComma with
  | .ok (root, _) => .ok root
  | .error (.null reader) => .error (some (reader.errorCode, reader.errorMessage))
  | .error _ => .error none

end Psych
