import Psych.Load.JsonLexemes
import Psych.Load.JsonReader

/-!
# The syntax of JSON

A document as a tree, with its tokens and the value it denotes. The reader accepts exactly the texts
that are the tokens of a tree with a value and at most `kStackLimit` levels (`jsonToValue_ok_iff`);
what a trailing comma is allowed in, and what is after the document, is said there.
-/

namespace Psych

/-! ## Trees -/

inductive JsonSyntax where
  | scalar (token : JsonToken)
  | array (elements : List JsonSyntax) (trailing : Bool)
  | object (members : List (JsonToken × JsonSyntax)) (trailing : Bool)

def commaToken : JsonToken := ⟨.listSeparator, [',']⟩

/-- Members with commas between them, and one more after the last if it is `trailing`. -/
def separated : List (List JsonToken) → Bool → List JsonToken
  | [], _ => []
  | [member], trailing => if trailing then member ++ [commaToken] else member
  | member :: next :: members, trailing =>
    member ++ commaToken :: separated (next :: members) trailing

mutual

def JsonSyntax.tokens : JsonSyntax → List JsonToken
  | .scalar token => [token]
  | .array elements trailing =>
    ⟨.arrayBegin, ['[']⟩ :: (separated (elementTokens elements) trailing ++ [⟨.arrayEnd, [']']⟩])
  | .object members trailing =>
    ⟨.objectBegin, ['{']⟩ :: (separated (memberTokens members) trailing ++ [⟨.objectEnd, ['}']⟩])

def elementTokens : List JsonSyntax → List (List JsonToken)
  | [] => []
  | element :: elements => element.tokens :: elementTokens elements

def memberTokens : List (JsonToken × JsonSyntax) → List (List JsonToken)
  | [] => []
  | (key, value) :: members =>
    (key :: ⟨.objectPairSeparator, [':']⟩ :: value.tokens) :: memberTokens members

end

section Meaning

variable (stod : Text → Stod)

def scalarNode (token : JsonToken) : Option JsonNode :=
  match token.type with
  | .nullToken => some .null
  | .boolTrue => some (.boolean true)
  | .boolFalse => some (.boolean false)
  | .number =>
    match stringToInt token.text with
    | some n => some (.integer n)
    | none => if stod token.text = .finite then some (.double token.text) else none
  | .string => (decodeString token).map .string
  | _ => none

mutual

/-- The value of a document; the last member with a key has its value. -/
def JsonSyntax.node : JsonSyntax → Option JsonNode
  | .scalar token => scalarNode stod token
  | .array elements _ => (elementNodes elements).map .list
  | .object members _ => (memberNodes members).map fun d => .dictionary (OrderedMap.lasts d)

def elementNodes : List JsonSyntax → Option (List JsonNode)
  | [] => some []
  | element :: elements =>
    element.node.bind fun node => (elementNodes elements).map (node :: ·)

def memberNodes : List (JsonToken × JsonSyntax) → Option (List (Text × JsonNode))
  | [] => some []
  | (key, value) :: members =>
    (if key.type = .string then decodeString key else none).bind fun k =>
      value.node.bind fun node => (memberNodes members).map ((k, node) :: ·)

end

end Meaning

mutual

/-- The levels of `BuildValue` that a document takes. -/
def JsonSyntax.nesting : JsonSyntax → Nat
  | .scalar _ => 1
  | .array elements _ => 1 + elementNesting elements
  | .object members _ => 1 + memberNesting members

def elementNesting : List JsonSyntax → Nat
  | [] => 0
  | element :: elements => max element.nesting (elementNesting elements)

def memberNesting : List (JsonToken × JsonSyntax) → Nat
  | [] => 0
  | (_, value) :: members => max value.nesting (memberNesting members)

end

mutual

/-- There is a trailing comma somewhere. -/
def JsonSyntax.trails : JsonSyntax → Bool
  | .scalar _ => false
  | .array elements trailing => trailing || elementTrails elements
  | .object members trailing => trailing || memberTrails members

def elementTrails : List JsonSyntax → Bool
  | [] => false
  | element :: elements => element.trails || elementTrails elements

def memberTrails : List (JsonToken × JsonSyntax) → Bool
  | [] => false
  | (_, value) :: members => value.trails || memberTrails members

end

def JsonSyntax.isContainer : JsonSyntax → Bool
  | .scalar _ => false
  | _ => true

/-! ## Reading tokens -/

/-- The tokens from one position to another; the second is where the last token ends. -/
def Lexed : Text → List JsonToken → Text → Prop
  | s, [], rest => rest = s
  | s, token :: tokens, rest =>
    tokenAt (eatWhitespaceAndComments s) = (token, none) ∧ Lexeme token ∧
      Lexed ((eatWhitespaceAndComments s).drop token.text.length) tokens rest

theorem lexed_append {s : Text} {tokens tokens' : List JsonToken} {rest : Text} :
    Lexed s (tokens ++ tokens') rest ↔ ∃ s', Lexed s tokens s' ∧ Lexed s' tokens' rest := by
  induction tokens generalizing s with
  | nil => exact ⟨fun h => ⟨s, rfl, h⟩, fun ⟨s', h, h'⟩ => (h : s' = s) ▸ h'⟩
  | cons token tokens ih =>
    simp only [List.cons_append, Lexed, ih]
    constructor
    · rintro ⟨hat, hlexeme, s', h, h'⟩
      exact ⟨s', ⟨hat, hlexeme, h⟩, h'⟩
    · rintro ⟨s', ⟨hat, hlexeme, h⟩, h'⟩
      exact ⟨hat, hlexeme, s', h, h'⟩

/-- A blank before the first token makes no difference. -/
theorem lexed_eat {s : Text} {tokens : List JsonToken} {rest : Text} (hne : tokens ≠ []) :
    Lexed (eatWhitespaceAndComments s) tokens rest ↔ Lexed s tokens rest := by
  cases tokens with
  | nil => exact absurd rfl hne
  | cons token tokens => simp only [Lexed, eat_idem]

/-- Every token takes a character. -/
theorem lexed_length {s : Text} {tokens : List JsonToken} {rest : Text} (h : Lexed s tokens rest) :
    tokens.length + rest.length ≤ s.length := by
  induction tokens generalizing s with
  | nil =>
    cases h
    simp
  | cons token tokens ih =>
    obtain ⟨hat, hlexeme, h⟩ := h
    have hrest := ih h
    have htoken := List.length_pos_iff.mpr hlexeme.ne_nil
    have heat := (eat_suffix s).length_le
    have hfits : token.text.length ≤ (eatWhitespaceAndComments s).length := by
      have hfound := tokenAt_found (eatWhitespaceAndComments s)
      rw [hat] at hfound
      cases hfound with
      | lexeme _ hs => rw [hs]; simp
      | endOfInput => simp
      | invalid => cases hlexeme
    simp only [List.length_drop] at hrest
    simp only [List.length_cons]
    omega

theorem JsonReader.moveTo_moveTo (reader : JsonReader) (s s' : Text) :
    (reader.moveTo s).moveTo s' = reader.moveTo s' := rfl

/-- What `ParseToken` leaves: the reader is at the token, and an error is set only where the token
is invalid. -/
structure AtToken (token : JsonToken) (reader : JsonReader) : Prop where
  atRest : AtRest reader.jsonPos
  token_eq : (tokenAt reader.jsonPos).1 = token

theorem tokenAt_valid {s : Text} {token : JsonToken} (h : (tokenAt s).1 = token)
    (hvalid : token.type ≠ .invalidToken) (hend : token.type ≠ .endOfInput) :
    tokenAt s = (token, none) ∧ Lexeme token := by
  have hfound := tokenAt_found s
  cases hat : tokenAt s with
  | mk found error =>
    rw [hat] at h hfound
    cases h
    cases hfound with
    | lexeme ht _ => exact ⟨rfl, ht⟩
    | endOfInput => exact absurd rfl hend
    | invalid => exact absurd rfl hvalid
    | invalidEscape => exact absurd rfl hvalid

theorem parseToken_atToken {reader reader' : JsonReader} {token : JsonToken}
    (h : reader.parseToken = (token, reader')) :
    AtToken token reader' ∧ reader'.jsonPos = eatWhitespaceAndComments reader.jsonPos := by
  unfold JsonReader.parseToken at h
  simp only at h
  split at h
  · rename_i token' hat
    cases h
    exact ⟨⟨eat_idem _, congrArg Prod.fst hat⟩, rfl⟩
  · rename_i token' pos hat
    cases h
    exact ⟨⟨eat_idem _, congrArg Prod.fst hat⟩, rfl⟩

theorem parseToken_valid {reader reader' : JsonReader} {token : JsonToken}
    (h : reader.parseToken = (token, reader')) (hvalid : token.type ≠ .invalidToken)
    (hend : token.type ≠ .endOfInput) :
    reader' = reader.moveTo (eatWhitespaceAndComments reader.jsonPos) ∧
      tokenAt (eatWhitespaceAndComments reader.jsonPos) = (token, none) ∧ Lexeme token := by
  obtain ⟨hat, hpos⟩ := parseToken_atToken h
  obtain ⟨htoken, hlexeme⟩ := tokenAt_valid hat.token_eq hvalid hend
  rw [hpos] at htoken
  refine ⟨?_, htoken, hlexeme⟩
  unfold JsonReader.parseToken at h
  simp only [JsonReader.moveTo, htoken, Prod.mk.injEq, true_and] at h
  exact h.symm

theorem parseToken_allowTrailingComma {reader reader' : JsonReader} {token : JsonToken}
    (h : reader.parseToken = (token, reader')) :
    reader'.allowTrailingComma = reader.allowTrailingComma := by
  unfold JsonReader.parseToken at h
  simp only at h
  split at h
  · cases h
    rfl
  · cases h
    rfl

theorem Lexeme.valid {token : JsonToken} (h : Lexeme token) :
    token.type ≠ .invalidToken ∧ token.type ≠ .endOfInput := by
  obtain ⟨type, text⟩ := token
  refine ⟨?_, ?_⟩
  · rintro ⟨⟩
    exact h
  · rintro ⟨⟩
    exact h

/-- The reader is at the first of the tokens from there on. -/
theorem AtToken.lexeme {token : JsonToken} {reader : JsonReader} {tokens : List JsonToken} {s : Text}
    (hat : AtToken token reader) (h : Lexed reader.jsonPos tokens s) (hne : tokens ≠ []) :
    Lexeme token := by
  cases tokens with
  | nil => exact absurd rfl hne
  | cons first tokens =>
    obtain ⟨hfirst, hlexeme, -⟩ := h
    have htoken := hat.token_eq
    rw [← hat.atRest, hfirst] at htoken
    exact htoken ▸ hlexeme

/-- Reading a token that is there. -/
theorem parseToken_of_tokenAt {reader : JsonReader} {token : JsonToken}
    (h : tokenAt (eatWhitespaceAndComments reader.jsonPos) = (token, none)) :
    reader.parseToken = (token, reader.moveTo (eatWhitespaceAndComments reader.jsonPos)) := by
  unfold JsonReader.parseToken
  simp only [JsonReader.moveTo, h]

/-! ## What is read is a document -/

section Sound

variable {α : Type}

/-- A member that is read is spelled by the tokens it is read from. -/
def MemberSound (buildMember : JsonToken → JsonReader → Except JsonFailure (α × JsonReader))
    (Spells : List JsonToken → α → Prop) (allow : Bool) : Prop :=
  ∀ ⦃token reader member reader'⦄, reader.allowTrailingComma = allow → AtToken token reader →
    buildMember token reader = .ok (member, reader') →
    ∃ tokens s, Spells tokens member ∧ tokens ≠ [] ∧ Lexed reader.jsonPos tokens s ∧
      reader' = reader.moveTo s

variable {buildMember : JsonToken → JsonReader → Except JsonFailure (α × JsonReader)}
  {Spells : List JsonToken → α → Prop} {allow : Bool}

theorem buildMembers_close {close : JsonTokenType} {turns : Nat} {token : JsonToken}
    (reader : JsonReader) (h : token.type = close) :
    buildMembers buildMember close turns token reader = .ok ([], token, reader) := by
  unfold buildMembers
  rw [if_pos h]

/-- What follows a member: a last comma, a comma and more members, or the end. -/
inductive AfterMember (buildMember : JsonToken → JsonReader → Except JsonFailure (α × JsonReader))
    (close : JsonTokenType) (turns : Nat) (reader : JsonReader) :
    List α → JsonToken → JsonReader → Prop
  | trailing {comma token : JsonToken} {reader₁ reader₂ : JsonReader}
      (hcomma : reader.parseToken = (comma, reader₁)) (hseparator : comma.type = .listSeparator)
      (hnext : (reader₁.advance comma).parseToken = (token, reader₂)) (hclose : token.type = close)
      (hallow : reader₂.allowTrailingComma = true) :
      AfterMember buildMember close turns reader [] token reader₂
  | more {comma token token' : JsonToken} {reader₁ reader₂ reader' : JsonReader} {members : List α}
      (hcomma : reader.parseToken = (comma, reader₁)) (hseparator : comma.type = .listSeparator)
      (hnext : (reader₁.advance comma).parseToken = (token, reader₂)) (hopen : token.type ≠ close)
      (hmore : buildMembers buildMember close turns token reader₂ = .ok (members, token', reader')) :
      AfterMember buildMember close turns reader members token' reader'
  | last {token : JsonToken} {reader₁ : JsonReader} (hnext : reader.parseToken = (token, reader₁))
      (hclose : token.type = close) : AfterMember buildMember close turns reader [] token reader₁

/-- One turn of the loop. -/
theorem buildMembers_cases {close : JsonTokenType} {turns : Nat} {token token' : JsonToken}
    {reader reader' : JsonReader} {members : List α} (hopen : token.type ≠ close)
    (h : buildMembers buildMember close (turns + 1) token reader = .ok (members, token', reader')) :
    ∃ member rest reader₁, members = member :: rest ∧
      buildMember token reader = .ok (member, reader₁) ∧
      AfterMember buildMember close turns reader₁ rest token' reader' := by
  unfold buildMembers at h
  rw [if_neg hopen] at h
  cases hmember : buildMember token reader with
  | error e =>
    rw [hmember] at h
    cases h
  | ok result =>
    obtain ⟨member, reader₁⟩ := result
    rw [hmember] at h
    simp only [bind, Except.bind] at h
    cases hnext : reader₁.parseToken with
    | mk token₁ reader₂ =>
      simp only [hnext] at h
      by_cases hseparator : token₁.type = .listSeparator
      · rw [if_pos hseparator] at h
        cases hafter : (reader₂.advance token₁).parseToken with
        | mk token₂ reader₃ =>
          simp only [hafter] at h
          by_cases hclose : token₂.type = close
          · rw [if_pos hclose] at h
            split at h
            · rename_i hallow
              cases h
              exact ⟨member, [], reader₁, rfl, rfl,
                .trailing hnext hseparator hafter hclose hallow⟩
            · cases h
          · rw [if_neg hclose] at h
            cases hmore : buildMembers buildMember close turns token₂ reader₃ with
            | error e =>
              rw [hmore] at h
              cases h
            | ok result =>
              obtain ⟨rest, token₃, reader₄⟩ := result
              rw [hmore] at h
              cases h
              exact ⟨member, rest, reader₁, rfl, rfl, .more hnext hseparator hafter hclose hmore⟩
      · rw [if_neg hseparator] at h
        by_cases hclose : token₁.type = close
        · rw [if_pos hclose, buildMembers_close reader₂ hclose] at h
          cases h
          exact ⟨member, [], reader₁, rfl, rfl, .last hnext hclose⟩
        · rw [if_neg hclose] at h
          cases h

theorem buildMembers_turn {close : JsonTokenType} (hclose : close ≠ .listSeparator) {turns : Nat}
    {token token' : JsonToken} {reader reader₁ reader' : JsonReader} {member : α} {rest : List α}
    (hopen : token.type ≠ close) (hmember : buildMember token reader = .ok (member, reader₁))
    (h : AfterMember buildMember close turns reader₁ rest token' reader') :
    buildMembers buildMember close (turns + 1) token reader =
      .ok (member :: rest, token', reader') := by
  unfold buildMembers
  rw [if_neg hopen, hmember]
  simp only [bind, Except.bind]
  cases h with
  | trailing hcomma hseparator hnext hlast hallow =>
    simp only [hcomma, hseparator, hnext, hlast, hallow, if_true]
  | more hcomma hseparator hnext hopen' hmore =>
    simp only [hcomma, hseparator, hnext, if_true, if_neg hopen', hmore]
  | last hnext hlast =>
    simp only [hnext, hlast, if_neg hclose, if_true, buildMembers_close _ hlast]

theorem separated_cons (member : List JsonToken) {members : List (List JsonToken)}
    (hne : members ≠ []) (trailing : Bool) :
    separated (member :: members) trailing = member ++ commaToken :: separated members trailing := by
  cases members with
  | nil => exact absurd rfl hne
  | cons next members => rfl

/-- A token read at some position, and the position after it. -/
theorem lexed_parseToken {reader reader' : JsonReader} {token : JsonToken}
    (h : reader.parseToken = (token, reader')) (hvalid : token.type ≠ .invalidToken)
    (hend : token.type ≠ .endOfInput) :
    ∃ s, Lexed reader.jsonPos [token] s ∧ reader'.advance token = reader.moveTo s := by
  obtain ⟨hreader, htoken, hlexeme⟩ := parseToken_valid h hvalid hend
  refine ⟨_, ⟨htoken, hlexeme, rfl⟩, ?_⟩
  rw [hreader]
  rfl

theorem comma_eq {s : Text} {comma : JsonToken} {rest : Text}
    (hseparator : comma.type = .listSeparator) (h : Lexed s [comma] rest) :
    comma = commaToken := by
  obtain ⟨-, hlexeme, -⟩ := h
  obtain ⟨type, text⟩ := comma
  cases hseparator
  exact congrArg (JsonToken.mk _) hlexeme

/-- The tokens of the members and the one that closes them. -/
theorem buildMembers_sound (hmember : MemberSound buildMember Spells allow) {close : JsonTokenType}
    (hvalid : close ≠ .invalidToken) (hend : close ≠ .endOfInput) {turns : Nat}
    {token token' : JsonToken} {reader reader' : JsonReader} {members : List α}
    (hallow : reader.allowTrailingComma = allow) (hat : AtToken token reader)
    (h : buildMembers buildMember close turns token reader = .ok (members, token', reader')) :
    ∃ tokens trailing s, List.Forall₂ Spells tokens members ∧ (trailing = true → allow = true) ∧
      (token.type ≠ close → tokens ≠ []) ∧ token'.type = close ∧
      Lexed reader.jsonPos (separated tokens trailing ++ [token']) s ∧
      reader'.advance token' = reader.moveTo s := by
  by_cases hopen : token.type = close
  · rw [buildMembers_close reader hopen] at h
    cases h
    obtain ⟨htoken, hlexeme⟩ := tokenAt_valid hat.token_eq (hopen ▸ hvalid) (hopen ▸ hend)
    refine ⟨[], false, _, .nil, by simp, fun h => absurd hopen h, hopen, ⟨?_, hlexeme, rfl⟩, ?_⟩
    · rw [hat.atRest]
      exact htoken
    · rw [hat.atRest]
      rfl
  · induction turns generalizing token reader members with
    | zero =>
      unfold buildMembers at h
      rw [if_neg hopen] at h
      cases h
    | succ turns ih =>
      obtain ⟨member, rest, reader₁, rfl, hbuild, hafter⟩ := buildMembers_cases hopen h
      obtain ⟨tokens, s, hspells, hne, hlexed, rfl⟩ := hmember hallow hat hbuild
      cases hafter with
      | trailing hcomma hseparator hnext hclose hallow' =>
        obtain ⟨s₁, hlexed₁, hadvance₁⟩ := lexed_parseToken hcomma
          (by rw [hseparator]; decide) (by rw [hseparator]; decide)
        rw [hadvance₁] at hnext
        obtain ⟨s₂, hlexed₂, hadvance₂⟩ := lexed_parseToken hnext (hclose ▸ hvalid) (hclose ▸ hend)
        cases comma_eq hseparator hlexed₁
        have hallow : allow = true := by
          obtain ⟨hreader, -⟩ := parseToken_valid hnext (hclose ▸ hvalid) (hclose ▸ hend)
          rw [hreader] at hallow'
          exact hallow.symm.trans hallow'
        refine ⟨[tokens], true, s₂, .cons hspells .nil, fun _ => hallow, fun _ => by simp, hclose,
          ?_, hadvance₂⟩
        have htokens : separated [tokens] true ++ [token'] =
            tokens ++ ([commaToken] ++ [token']) := by simp [separated]
        rw [htokens, lexed_append, ]
        exact ⟨s, hlexed, lexed_append.mpr ⟨s₁, hlexed₁, hlexed₂⟩⟩
      | more hcomma hseparator hnext hopen' hmore =>
        obtain ⟨s₁, hlexed₁, hadvance₁⟩ := lexed_parseToken hcomma
          (by rw [hseparator]; decide) (by rw [hseparator]; decide)
        rw [hadvance₁] at hnext
        obtain ⟨hat', hpos⟩ := parseToken_atToken hnext
        cases comma_eq hseparator hlexed₁
        have hallow' : _ = allow := (parseToken_allowTrailingComma hnext).trans hallow
        obtain ⟨tokens', trailing, s₂, hspells', htrailing, hne', hclose, hlexed₂, hadvance₂⟩ :=
          ih hallow' hat' hmore hopen'
        -- The token after the comma starts a member, so that no error was set at it.
        have hlexeme := hat'.lexeme hlexed₂ (by simp)
        obtain ⟨rfl, -⟩ := parseToken_valid hnext hlexeme.valid.1 hlexeme.valid.2
        refine ⟨tokens :: tokens', trailing, s₂, .cons hspells hspells', htrailing,
          fun _ => by simp, hclose, ?_, hadvance₂⟩
        have htokens : separated (tokens :: tokens') trailing ++ [token'] =
            tokens ++ ([commaToken] ++ (separated tokens' trailing ++ [token'])) := by
          rw [separated_cons tokens (hne' hopen')]
          simp
        rw [htokens]
        refine lexed_append.mpr ⟨s, hlexed, lexed_append.mpr ⟨s₁, hlexed₁, ?_⟩⟩
        exact (lexed_eat (by simp)).mp hlexed₂
      | last hnext hclose =>
        obtain ⟨s₁, hlexed₁, hadvance₁⟩ := lexed_parseToken hnext (hclose ▸ hvalid) (hclose ▸ hend)
        refine ⟨[tokens], false, s₁, .cons hspells .nil, by simp, fun _ => by simp, hclose, ?_,
          hadvance₁⟩
        exact lexed_append.mpr ⟨s, hlexed, hlexed₁⟩

end Sound

section SoundValue

variable {stod : Text → Stod} {allow : Bool}

/-- Tokens of a document with the value, at most so many levels, and no trailing comma unless it
is allowed. -/
def SpellsNode (stod : Text → Stod) (levels : Nat) (allow : Bool) (tokens : List JsonToken)
    (node : JsonNode) : Prop :=
  ∃ tree : JsonSyntax, tree.tokens = tokens ∧ tree.node stod = some node ∧ tree.nesting ≤ levels ∧
    (tree.trails = true → allow = true)

/-- Tokens of a key, a colon and a document. -/
def SpellsPair (stod : Text → Stod) (levels : Nat) (allow : Bool) (tokens : List JsonToken)
    (pair : Text × JsonNode) : Prop :=
  ∃ key value, tokens = key :: ⟨.objectPairSeparator, [':']⟩ :: value ∧ key.type = .string ∧
    decodeString key = some pair.1 ∧ SpellsNode stod levels allow value pair.2

theorem elements_of_spells {levels : Nat} {tokens : List (List JsonToken)} {nodes : List JsonNode}
    (h : List.Forall₂ (SpellsNode stod levels allow) tokens nodes) :
    ∃ trees, elementTokens trees = tokens ∧ elementNodes stod trees = some nodes ∧
      elementNesting trees ≤ levels ∧ (elementTrails trees = true → allow = true) := by
  induction h with
  | nil => exact ⟨[], rfl, rfl, Nat.zero_le _, by simp [elementTrails]⟩
  | cons hfirst hrest ih =>
    obtain ⟨tree, rfl, hnode, hnesting, htrails⟩ := hfirst
    obtain ⟨trees, rfl, hnodes, hnestings, htrailss⟩ := ih
    refine ⟨tree :: trees, rfl, ?_, ?_, ?_⟩
    · simp [elementNodes, hnode, hnodes]
    · simp [elementNesting, hnesting, hnestings]
    · rw [elementTrails, Bool.or_eq_true]
      exact fun h => h.elim htrails htrailss

theorem members_of_spells {levels : Nat} {tokens : List (List JsonToken)}
    {pairs : List (Text × JsonNode)}
    (h : List.Forall₂ (SpellsPair stod levels allow) tokens pairs) :
    ∃ members, memberTokens members = tokens ∧ memberNodes stod members = some pairs ∧
      memberNesting members ≤ levels ∧ (memberTrails members = true → allow = true) := by
  induction h with
  | nil => exact ⟨[], rfl, rfl, Nat.zero_le _, by simp [memberTrails]⟩
  | cons hfirst hrest ih =>
    obtain ⟨key, value, rfl, hkey, hdecode, tree, rfl, hnode, hnesting, htrails⟩ := hfirst
    obtain ⟨members, rfl, hnodes, hnestings, htrailss⟩ := ih
    refine ⟨(key, tree) :: members, rfl, ?_, ?_, ?_⟩
    · simp [memberNodes, hkey, hdecode, hnode, hnodes]
    · simp [memberNesting, hnesting, hnestings]
    · rw [memberTrails, Bool.or_eq_true]
      exact fun h => h.elim htrails htrailss

/-- A token of a kind that has one text. -/
theorem Lexeme.eq_mk {token : JsonToken} {type : JsonTokenType} {text : Text} (h : Lexeme token)
    (htype : token.type = type) (htext : Lexeme ⟨type, token.text⟩ → token.text = text) :
    token = ⟨type, text⟩ := by
  obtain ⟨type, text⟩ := token
  cases htype
  rw [JsonToken.mk.injEq]
  exact ⟨rfl, htext h⟩

/-- The token that opens an array or an object, its members, and the token that closes it. -/
theorem container_lexed {reader reader₁ reader₂ reader₃ : JsonReader} {α : Type}
    {buildMember : JsonToken → JsonReader → Except JsonFailure (α × JsonReader)}
    {Spells : List JsonToken → α → Prop} {opening first closing : JsonToken}
    {close : JsonTokenType} {turns : Nat} {members : List α}
    (hmember : MemberSound buildMember Spells reader.allowTrailingComma)
    (hopen : reader.parseToken = (opening, reader₁)) (hvalid : opening.type ≠ .invalidToken)
    (hend : opening.type ≠ .endOfInput) (hclose : close ≠ .invalidToken)
    (hclose' : close ≠ .endOfInput)
    (hfirst : (reader₁.advance opening).parseToken = (first, reader₂))
    (h : buildMembers buildMember close turns first reader₂ = .ok (members, closing, reader₃)) :
    ∃ tokens trailing s, List.Forall₂ Spells tokens members ∧
      (trailing = true → reader.allowTrailingComma = true) ∧ closing.type = close ∧
      Lexeme opening ∧ Lexeme closing ∧
      Lexed reader.jsonPos (opening :: (separated tokens trailing ++ [closing])) s ∧
      reader₃.advance closing = reader.moveTo s := by
  obtain ⟨s, hlexed, hadvance⟩ := lexed_parseToken hopen hvalid hend
  rw [hadvance] at hfirst
  obtain ⟨hat, hpos⟩ := parseToken_atToken hfirst
  have hallow : reader₂.allowTrailingComma = (reader.moveTo s).allowTrailingComma :=
    parseToken_allowTrailingComma hfirst
  obtain ⟨tokens, trailing, s₁, hspells, htrailing, -, htype, hlexed₁, hadvance₁⟩ :=
    buildMembers_sound hmember hclose hclose' hallow hat h
  have hlexeme := hat.lexeme hlexed₁ (by simp)
  obtain ⟨rfl, -⟩ := parseToken_valid hfirst hlexeme.valid.1 hlexeme.valid.2
  have hclosing : Lexeme closing := by
    obtain ⟨s', -, -, hlexeme, -⟩ := lexed_append.mp hlexed₁
    exact hlexeme
  refine ⟨tokens, trailing, s₁, hspells, htrailing, htype, hlexed.2.1, hclosing, ?_, hadvance₁⟩
  have hall : Lexed reader.jsonPos ([opening] ++ (separated tokens trailing ++ [closing])) s₁ :=
    lexed_append.mpr ⟨s, hlexed, (lexed_eat (by simp)).mp hlexed₁⟩
  exact hall

theorem container_sound {α : Type}
    {buildMember : JsonToken → JsonReader → Except JsonFailure (α × JsonReader)}
    {Spells : List JsonToken → α → Prop} {opening : JsonToken} {openText closeText : Text}
    {openType close : JsonTokenType} {value : List α → JsonNode} {node : JsonNode}
    {reader reader₁ reader' : JsonReader}
    (hmember : MemberSound buildMember Spells reader.allowTrailingComma)
    (hparse : reader.parseToken = (opening, reader₁)) (htype : opening.type = openType)
    (hopen : openType ≠ .invalidToken ∧ openType ≠ .endOfInput ∧
      ∀ text, Lexeme ⟨openType, text⟩ → text = openText)
    (hclose : close ≠ .invalidToken ∧ close ≠ .endOfInput ∧
      ∀ text, Lexeme ⟨close, text⟩ → text = closeText)
    (h : buildContainer buildMember close value (reader₁.advance opening) = .ok (node, reader')) :
    ∃ members, node = value members ∧ ∃ tokens trailing s, List.Forall₂ Spells tokens members ∧
      (trailing = true → reader.allowTrailingComma = true) ∧
      Lexed reader.jsonPos
        (⟨openType, openText⟩ :: (separated tokens trailing ++ [⟨close, closeText⟩])) s ∧
      reader' = reader.moveTo s := by
  unfold buildContainer at h
  cases hfirst : (reader₁.advance opening).parseToken with
  | mk first reader₂ =>
    simp only [hfirst] at h
    cases hmembers : buildMembers buildMember close (reader₂.jsonPos.length + 1) first reader₂ with
    | error e =>
      rw [hmembers] at h
      cases h
    | ok result =>
      obtain ⟨members, closing, reader₃⟩ := result
      rw [hmembers] at h
      cases h
      obtain ⟨tokens, trailing, s, hspells, htrailing, hclosing, hlexeme, hlexeme', hlexed,
          hadvance⟩ :=
        container_lexed hmember hparse (htype ▸ hopen.1) (htype ▸ hopen.2.1) hclose.1 hclose.2.1
          hfirst hmembers
      refine ⟨members, rfl, tokens, trailing, s, hspells, htrailing, ?_, hadvance⟩
      rw [hlexeme.eq_mk htype (hopen.2.2 _), hlexeme'.eq_mk hclosing (hclose.2.2 _)] at hlexed
      exact hlexed

theorem scalarNode_of_decodeNumber {token : JsonToken} {reader : JsonReader} {node : JsonNode}
    (htype : token.type = .number) (h : decodeNumber stod token reader = .ok node) :
    scalarNode stod token = some node := by
  unfold decodeNumber at h
  unfold scalarNode
  rw [htype]
  cases hint : stringToInt token.text with
  | some n =>
    rw [hint] at h
    cases h
    rfl
  | none =>
    rw [hint] at h
    simp only at h ⊢
    cases hstod : stod token.text with
    | finite =>
      rw [hstod] at h
      cases h
      rfl
    | refused =>
      rw [hstod] at h
      cases h
    | outOfRange =>
      rw [hstod] at h
      cases h

/-- What `BuildValue` makes of a document at a position. -/
def ReadsNode (stod : Text → Stod) (levels : Nat) (isRoot : Bool) (reader : JsonReader)
    (node : JsonNode) (reader' : JsonReader) : Prop :=
  ∃ (tree : JsonSyntax) (s : Text), tree.node stod = some node ∧ tree.nesting ≤ levels ∧
    (tree.trails = true → reader.allowTrailingComma = true) ∧
    (isRoot = true → tree.isContainer = true) ∧ Lexed reader.jsonPos tree.tokens s ∧
    reader' = reader.moveTo s

theorem readsNode_scalar {levels : Nat} {reader reader₁ : JsonReader} {token : JsonToken}
    {node : JsonNode} (hparse : reader.parseToken = (token, reader₁))
    (hnode : scalarNode stod token = some node) :
    ReadsNode stod (levels + 1) false reader node (reader₁.advance token) := by
  have hvalid : token.type ≠ .invalidToken ∧ token.type ≠ .endOfInput := by
    unfold scalarNode at hnode
    refine ⟨fun h => ?_, fun h => ?_⟩
    · rw [h] at hnode
      cases hnode
    · rw [h] at hnode
      cases hnode
  obtain ⟨s, hlexed, hadvance⟩ := lexed_parseToken hparse hvalid.1 hvalid.2
  exact ⟨.scalar token, s, hnode, Nat.le_add_left 1 levels, by simp [JsonSyntax.trails], by simp,
    hlexed, hadvance⟩

theorem memberSound_element {levels : Nat}
    (ih : ∀ reader node reader', buildValue stod levels false reader = .ok (node, reader') →
      ReadsNode stod levels false reader node reader') :
    MemberSound (fun _ reader => buildValue stod levels false reader)
      (SpellsNode stod levels allow) allow := by
  intro token reader node reader' hallow hat h
  obtain ⟨tree, s, hnode, hnesting, htrails, -, hlexed, hreader⟩ := ih reader node reader' h
  refine ⟨tree.tokens, s, ⟨tree, rfl, hnode, hnesting, fun h => hallow ▸ htrails h⟩, ?_, hlexed,
    hreader⟩
  cases tree <;> simp [JsonSyntax.tokens]

theorem memberSound_pair {levels : Nat}
    (ih : ∀ reader node reader', buildValue stod levels false reader = .ok (node, reader') →
      ReadsNode stod levels false reader node reader') :
    MemberSound (buildPair fun reader => buildValue stod levels false reader)
      (SpellsPair stod levels allow) allow := by
  intro token reader pair reader' hallow hat h
  unfold buildPair at h
  by_cases htype : token.type = .string
  · rw [if_neg (not_not.mpr htype)] at h
    cases hdecode : decodeString token with
    | none =>
      rw [hdecode] at h
      cases h
    | some key =>
      simp only [hdecode] at h
      obtain ⟨htoken, hlexeme⟩ := tokenAt_valid hat.token_eq (by rw [htype]; decide)
        (by rw [htype]; decide)
      cases hcolon : (reader.advance token).parseToken with
      | mk colon reader₁ =>
        simp only [hcolon] at h
        by_cases hseparator : colon.type = .objectPairSeparator
        · rw [if_neg (not_not.mpr hseparator)] at h
          obtain ⟨s, hlexed, hadvance⟩ := lexed_parseToken hcolon (by rw [hseparator]; decide)
            (by rw [hseparator]; decide)
          have hcolon_eq : colon = ⟨.objectPairSeparator, [':']⟩ :=
            hlexed.2.1.eq_mk hseparator id
          rw [hadvance] at h
          cases hnext : ((reader.advance token).moveTo s).parseToken with
          | mk next reader₂ =>
            simp only [hnext] at h
            cases hvalue : buildValue stod levels false reader₂ with
            | error e =>
              rw [hvalue] at h
              cases h
            | ok result =>
              obtain ⟨node, reader₃⟩ := result
              rw [hvalue] at h
              cases h
              obtain ⟨tree, s', hnode, hnesting, htrails, -, hlexed', rfl⟩ := ih _ _ _ hvalue
              obtain ⟨hat', hpos'⟩ := parseToken_atToken hnext
              have hne : tree.tokens ≠ [] := by cases tree <;> simp [JsonSyntax.tokens]
              have hlexeme' := hat'.lexeme hlexed' hne
              have hallow' := parseToken_allowTrailingComma hnext
              obtain ⟨rfl, -⟩ := parseToken_valid hnext hlexeme'.valid.1 hlexeme'.valid.2
              refine ⟨token :: colon :: tree.tokens, s', ⟨token, tree.tokens, by rw [hcolon_eq],
                htype, hdecode, tree, rfl, hnode, hnesting, fun h => ?_⟩, by simp, ?_, rfl⟩
              · exact hallow ▸ htrails h
              · refine ⟨by rw [hat.atRest]; exact htoken, hlexeme, ?_⟩
                rw [hat.atRest]
                have hall : Lexed (reader.advance token).jsonPos ([colon] ++ tree.tokens) s' :=
                  lexed_append.mpr ⟨s, hlexed, (lexed_eat hne).mp hlexed'⟩
                exact hall
        · rw [if_pos hseparator] at h
          cases h
  · rw [if_pos htype] at h
    cases h

theorem buildValue_sound (levels : Nat) (isRoot : Bool) {reader reader' : JsonReader}
    {node : JsonNode} (h : buildValue stod levels isRoot reader = .ok (node, reader')) :
    ReadsNode stod levels isRoot reader node reader' := by
  induction levels generalizing isRoot reader node reader' with
  | zero => cases h
  | succ levels ih =>
    unfold buildValue at h
    cases hparse : reader.parseToken with
    | mk token reader₁ =>
      simp only [hparse] at h
      split at h
      · cases h
      · rename_i hroot
        -- A scalar is not read as a root.
        have hscalar : ∀ {value : JsonNode}, token.type ≠ .objectBegin → token.type ≠ .arrayBegin →
            scalarNode stod token = some value →
            ReadsNode stod (levels + 1) isRoot reader value (reader₁.advance token) := by
          intro value hobject harray hvalue
          cases isRoot with
          | true => exact absurd ⟨rfl, hobject, harray⟩ hroot
          | false => exact readsNode_scalar hparse hvalue
        split at h
        · rename_i htype
          cases h
          exact hscalar (by simp [htype]) (by simp [htype]) (by simp [scalarNode, htype])
        · rename_i htype
          cases h
          exact hscalar (by simp [htype]) (by simp [htype]) (by simp [scalarNode, htype])
        · rename_i htype
          cases h
          exact hscalar (by simp [htype]) (by simp [htype]) (by simp [scalarNode, htype])
        · rename_i htype
          cases hnumber : decodeNumber stod token reader₁ with
          | error e =>
            rw [hnumber] at h
            cases h
          | ok value =>
            rw [hnumber] at h
            cases h
            exact hscalar (by simp [htype]) (by simp [htype])
              (scalarNode_of_decodeNumber htype hnumber)
        · rename_i htype
          cases hstring : decodeString token with
          | none =>
            rw [hstring] at h
            cases h
          | some value =>
            rw [hstring] at h
            cases h
            exact hscalar (by simp [htype]) (by simp [htype]) (by simp [scalarNode, htype, hstring])
        · rename_i htype
          obtain ⟨members, rfl, tokens, trailing, s, hspells, htrailing, hlexed, rfl⟩ :=
            container_sound (memberSound_element fun _ _ _ h => ih false h) hparse htype
              ⟨by decide, by decide, fun _ => id⟩ ⟨by decide, by decide, fun _ => id⟩ h
          obtain ⟨trees, rfl, hnodes, hnesting, htrails⟩ := elements_of_spells hspells
          refine ⟨.array trees trailing, s, ?_, ?_, ?_, fun _ => rfl, hlexed, rfl⟩
          · rw [JsonSyntax.node, hnodes, Option.map_some]
          · rw [JsonSyntax.nesting]
            omega
          · rw [JsonSyntax.trails, Bool.or_eq_true]
            exact fun h => h.elim htrailing htrails
        · rename_i htype
          obtain ⟨members, rfl, tokens, trailing, s, hspells, htrailing, hlexed, rfl⟩ :=
            container_sound (memberSound_pair fun _ _ _ h => ih false h) hparse htype
              ⟨by decide, by decide, fun _ => id⟩ ⟨by decide, by decide, fun _ => id⟩ h
          obtain ⟨trees, rfl, hnodes, hnesting, htrails⟩ := members_of_spells hspells
          refine ⟨.object trees trailing, s, ?_, ?_, ?_, fun _ => rfl, hlexed, rfl⟩
          · rw [JsonSyntax.node, hnodes, Option.map_some]
          · rw [JsonSyntax.nesting]
            omega
          · rw [JsonSyntax.trails, Bool.or_eq_true]
            exact fun h => h.elim htrailing htrails
        · cases h

end SoundValue

end Psych
