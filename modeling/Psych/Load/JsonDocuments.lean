import Psych.Load.JsonSyntax

/-!
# Documents the reader accepts

The other half of `JsonSyntax`: the tokens of a document are read as its value
(`buildValue_complete`). With both halves the texts that are accepted are characterised
(`jsonToValue_ok_iff`), and documents may be written in any layout (`jsonToValue_written`).
-/

namespace Psych

/-! ## Members -/

section Members

variable {α : Type}

/-- A member is read from the tokens that spell it, and does not start with the token that closes
the members. -/
def MemberComplete (buildMember : JsonToken → JsonReader → Except JsonFailure (α × JsonReader))
    (Spells : List JsonToken → α → Prop) (close : JsonTokenType) (allow : Bool) : Prop :=
  ∀ ⦃token reader tokens member s⦄, reader.allowTrailingComma = allow → Spells tokens member →
    AtToken token reader → Lexed reader.jsonPos tokens s →
    buildMember token reader = .ok (member, reader.moveTo s) ∧ tokens ≠ [] ∧ token.type ≠ close

variable {buildMember : JsonToken → JsonReader → Except JsonFailure (α × JsonReader)}
  {Spells : List JsonToken → α → Prop} {close : JsonTokenType} {allow : Bool}

/-- The next token of a reader. -/
theorem parseToken_lexed (reader : JsonReader) {token : JsonToken} {tokens : List JsonToken}
    {s : Text} (h : Lexed reader.jsonPos (token :: tokens) s) :
    reader.parseToken = (token, reader.moveTo (eatWhitespaceAndComments reader.jsonPos)) ∧
      ∃ s', (reader.moveTo (eatWhitespaceAndComments reader.jsonPos)).advance token =
        reader.moveTo s' ∧ Lexed s' tokens s := by
  obtain ⟨htoken, -, hrest⟩ := h
  exact ⟨parseToken_of_tokenAt htoken, _, rfl, hrest⟩

theorem atToken_parseToken (reader : JsonReader) :
    AtToken reader.parseToken.1 reader.parseToken.2 :=
  (parseToken_atToken rfl).1

theorem separated_prefix (member : List JsonToken) (members : List (List JsonToken))
    (trailing : Bool) : ∃ after, separated (member :: members) trailing = member ++ after := by
  cases members with
  | nil =>
    cases trailing with
    | false => exact ⟨[], by simp [separated]⟩
    | true => exact ⟨[commaToken], rfl⟩
  | cons next members => exact ⟨_, rfl⟩

theorem length_le_separated (members : List (List JsonToken)) (trailing : Bool) :
    members.length ≤ (separated members trailing).length + 1 := by
  induction members with
  | nil => exact Nat.zero_le _
  | cons member members ih =>
    cases members with
    | nil => exact Nat.succ_le_succ (Nat.zero_le _)
    | cons next members =>
      rw [separated_cons member (List.cons_ne_nil _ _), List.length_append]
      simp only [List.length_cons] at ih ⊢
      omega

theorem buildMembers_complete (hmember : MemberComplete buildMember Spells close allow)
    (hclose : close ≠ .listSeparator) {tokens : List (List JsonToken)} {members : List α}
    (hspells : List.Forall₂ Spells tokens members) {trailing : Bool}
    (htrailing : trailing = true → allow = true) {turns : Nat} (hturns : tokens.length ≤ turns)
    {token closing : JsonToken} {reader : JsonReader} {s : Text}
    (hallow : reader.allowTrailingComma = allow) (hat : AtToken token reader)
    (hclosing : closing.type = close)
    (h : Lexed reader.jsonPos (separated tokens trailing ++ [closing]) s) :
    ∃ reader', buildMembers buildMember close turns token reader =
      .ok (members, closing, reader') ∧ reader'.advance closing = reader.moveTo s := by
  induction hspells generalizing turns token reader with
  | nil =>
    obtain ⟨htoken, -, hs⟩ := h
    have heq := hat.token_eq
    rw [← hat.atRest, htoken] at heq
    cases heq
    refine ⟨reader, buildMembers_close reader hclosing, ?_⟩
    rw [hat.atRest] at hs
    cases hs
    rfl
  | @cons first member rest members hfirst hrest ih =>
    cases turns with
    | zero => simp at hturns
    | succ turns =>
      -- The tokens of the first member, and those after it.
      have hsplit : ∃ after, separated (first :: rest) trailing ++ [closing] = first ++ after ∧
          ((rest = [] ∧ trailing = false ∧ after = [closing]) ∨
            (rest = [] ∧ trailing = true ∧ after = [commaToken, closing]) ∨
            (rest ≠ [] ∧ after = commaToken :: (separated rest trailing ++ [closing]))) := by
        cases rest with
        | nil =>
          cases trailing with
          | false => exact ⟨[closing], by simp [separated], Or.inl ⟨rfl, rfl, rfl⟩⟩
          | true =>
            exact ⟨[commaToken, closing], by simp [separated], Or.inr (Or.inl ⟨rfl, rfl, rfl⟩)⟩
        | cons next rest =>
          exact ⟨_, by rw [separated_cons first (List.cons_ne_nil _ _)]; simp,
            Or.inr (Or.inr ⟨List.cons_ne_nil _ _, rfl⟩)⟩
      obtain ⟨after, hafter, hcases⟩ := hsplit
      rw [hafter] at h
      obtain ⟨s₁, hlexed, h⟩ := lexed_append.mp h
      obtain ⟨hbuild, -, hopen⟩ := hmember hallow hfirst hat hlexed
      rcases hcases with ⟨rfl, rfl, rfl⟩ | ⟨rfl, rfl, rfl⟩ | ⟨hne, rfl⟩
      · cases hrest
        obtain ⟨hparse, s₂, hadvance, hs₂⟩ := parseToken_lexed (reader.moveTo s₁) h
        cases hs₂
        exact ⟨_, buildMembers_turn hclose hopen hbuild (.last hparse hclosing), hadvance⟩
      · cases hrest
        obtain ⟨hparse, s₂, hadvance, h⟩ := parseToken_lexed (reader.moveTo s₁) h
        obtain ⟨hparse', s₃, hadvance', hs₃⟩ := parseToken_lexed (reader.moveTo s₂) h
        cases hs₃
        exact ⟨(reader.moveTo s₂).moveTo (eatWhitespaceAndComments s₂),
          buildMembers_turn hclose hopen hbuild (.trailing hparse rfl
            (by rw [hadvance]; exact hparse') hclosing (hallow.trans (htrailing rfl))), hadvance'⟩
      · obtain ⟨hparse, s₂, hadvance, h⟩ := parseToken_lexed (reader.moveTo s₁) h
        have hnext := atToken_parseToken (reader.moveTo s₂)
        cases hparse' : (reader.moveTo s₂).parseToken with
        | mk token₂ reader₂ =>
          rw [hparse'] at hnext
          have hpos : reader₂.jsonPos = eatWhitespaceAndComments s₂ := (parseToken_atToken hparse').2
          have hlexed' : Lexed reader₂.jsonPos (separated rest trailing ++ [closing]) s :=
            hpos ▸ (lexed_eat (by simp)).mpr h
          have hlexeme := hnext.lexeme hlexed' (by simp)
          have hreader₂ := (parseToken_valid hparse' hlexeme.valid.1 hlexeme.valid.2).1
          have hallow₂ : reader₂.allowTrailingComma = allow :=
            (parseToken_allowTrailingComma hparse').trans hallow
          obtain ⟨reader', hmore, hreader'⟩ := ih (by simpa using hturns) hallow₂ hnext hlexed'
          refine ⟨reader', buildMembers_turn hclose hopen hbuild
            (.more hparse rfl (by rw [hadvance]; exact hparse') ?_ hmore), ?_⟩
          · -- The next member does not start with the closing token.
            cases hrest with
            | nil => exact absurd rfl hne
            | @cons next _ rest _ hspellsNext _ =>
              obtain ⟨after, hafter⟩ := separated_prefix next rest trailing
              rw [hafter, List.append_assoc] at hlexed'
              obtain ⟨s₃, hlexedNext, -⟩ := lexed_append.mp hlexed'
              exact (hmember hallow₂ hspellsNext hnext hlexedNext).2.2
          · rw [hreader', hreader₂]
            rfl

/-- An array or an object from the tokens of its members. -/
theorem buildContainer_complete (value : List α → JsonNode) (reader : JsonReader)
    (hmember : MemberComplete buildMember Spells close allow)
    (hclose : close ≠ .listSeparator) {tokens : List (List JsonToken)}
    {members : List α} (hspells : List.Forall₂ Spells tokens members) {trailing : Bool}
    (htrailing : trailing = true → allow = true) {closing : JsonToken} {s : Text}
    (hallow : reader.allowTrailingComma = allow) (hclosing : closing.type = close)
    (h : Lexed reader.jsonPos (separated tokens trailing ++ [closing]) s) :
    buildContainer buildMember close value reader = .ok (value members, reader.moveTo s) := by
  have hat := atToken_parseToken reader
  unfold buildContainer
  cases hparse : reader.parseToken with
  | mk token reader₁ =>
    rw [hparse] at hat
    have hpos : reader₁.jsonPos = eatWhitespaceAndComments reader.jsonPos :=
      (parseToken_atToken hparse).2
    have hlexed : Lexed reader₁.jsonPos (separated tokens trailing ++ [closing]) s :=
      hpos ▸ (lexed_eat (by simp)).mpr h
    have hlexeme := hat.lexeme hlexed (by simp)
    have hreader₁ := (parseToken_valid hparse hlexeme.valid.1 hlexeme.valid.2).1
    have hallow₁ : reader₁.allowTrailingComma = allow :=
      (parseToken_allowTrailingComma hparse).trans hallow
    -- There are no more members than tokens, and no more tokens than characters.
    have hturns : tokens.length ≤ reader₁.jsonPos.length + 1 := by
      have hlength := lexed_length hlexed
      have hmembers := length_le_separated tokens trailing
      rw [List.length_append] at hlength
      omega
    obtain ⟨reader', hmembers, hreader'⟩ :=
      buildMembers_complete hmember hclose hspells htrailing hturns hallow₁ hat hclosing hlexed
    have hmoved : reader₁.moveTo s = reader.moveTo s := by rw [hreader₁, JsonReader.moveTo_moveTo]
    simp only [bind, Except.bind, hmembers, hreader', hmoved]

end Members

/-! ## Values -/

section Values

variable {stod : Text → Stod} {allow : Bool}

theorem spells_of_elements {levels : Nat} {elements : List JsonSyntax} {nodes : List JsonNode}
    (hnodes : elementNodes stod elements = some nodes) (hnesting : elementNesting elements ≤ levels)
    (htrails : elementTrails elements = true → allow = true) :
    List.Forall₂ (SpellsNode stod levels allow) (elementTokens elements) nodes := by
  induction elements generalizing nodes with
  | nil =>
    cases hnodes
    exact .nil
  | cons element elements ih =>
    simp only [elementNodes, Option.bind_eq_some_iff, Option.map_eq_some_iff] at hnodes
    obtain ⟨node, hnode, nodes, hrest, rfl⟩ := hnodes
    rw [elementNesting] at hnesting
    rw [elementTrails, Bool.or_eq_true] at htrails
    exact .cons ⟨element, rfl, hnode, by omega, fun h => htrails (Or.inl h)⟩
      (ih hrest (by omega) fun h => htrails (Or.inr h))

theorem spells_of_members {levels : Nat} {members : List (JsonToken × JsonSyntax)}
    {pairs : List (Text × JsonNode)} (hpairs : memberNodes stod members = some pairs)
    (hnesting : memberNesting members ≤ levels)
    (htrails : memberTrails members = true → allow = true) :
    List.Forall₂ (SpellsPair stod levels allow) (memberTokens members) pairs := by
  induction members generalizing pairs with
  | nil =>
    cases hpairs
    exact .nil
  | cons member members ih =>
    obtain ⟨key, value⟩ := member
    simp only [memberNodes, Option.bind_eq_some_iff, Option.map_eq_some_iff] at hpairs
    obtain ⟨k, hkey, node, hnode, pairs, hrest, rfl⟩ := hpairs
    rw [memberNesting] at hnesting
    rw [memberTrails, Bool.or_eq_true] at htrails
    by_cases htype : key.type = .string
    · rw [if_pos htype] at hkey
      refine .cons ⟨key, value.tokens, rfl, htype, hkey, value, rfl, hnode, by omega,
        fun h => htrails (Or.inl h)⟩ (ih hrest (by omega) fun h => htrails (Or.inr h))
    · rw [if_neg htype] at hkey
      cases hkey

theorem decodeNumber_of_scalarNode {token : JsonToken} {node : JsonNode}
    (htype : token.type = .number) (h : scalarNode stod token = some node) (reader : JsonReader) :
    decodeNumber stod token reader = .ok node := by
  unfold scalarNode at h
  unfold decodeNumber
  rw [htype] at h
  cases hint : stringToInt token.text with
  | some n =>
    simp only [hint] at h ⊢
    cases h
    rfl
  | none =>
    simp only [hint] at h ⊢
    split at h
    · rename_i hstod
      cases h
      rw [hstod]
    · cases h

/-- What `BuildValue` does with a token it is at. -/
theorem buildValue_scalar {levels : Nat} {token : JsonToken} {reader : JsonReader}
    {node : JsonNode} {reader₁ : JsonReader} (hparse : reader.parseToken = (token, reader₁))
    (hnode : scalarNode stod token = some node) :
    buildValue stod (levels + 1) false reader = .ok (node, reader₁.advance token) := by
  unfold buildValue
  simp only [hparse, Bool.false_eq_true, false_and, if_false]
  cases htype : token.type with
  | number => simp only [decodeNumber_of_scalarNode htype hnode, bind, Except.bind]
  | string =>
    simp only [scalarNode, htype, Option.map_eq_some_iff] at hnode
    obtain ⟨s, hs, rfl⟩ := hnode
    simp only [hs]
  | nullToken =>
    simp only [scalarNode, htype, Option.some.injEq] at hnode
    rw [hnode]
  | boolTrue =>
    simp only [scalarNode, htype, Option.some.injEq] at hnode
    rw [hnode]
  | boolFalse =>
    simp only [scalarNode, htype, Option.some.injEq] at hnode
    rw [hnode]
  | _ => simp [scalarNode, htype] at hnode

theorem JsonSyntax.tokens_ne_nil (tree : JsonSyntax) : tree.tokens ≠ [] := by
  cases tree <;> simp [JsonSyntax.tokens]

/-- No value starts with a token that closes an array or an object. -/
theorem first_ne_close {tree : JsonSyntax} {node : JsonNode} {token : JsonToken}
    {tokens : List JsonToken} (hnode : tree.node stod = some node)
    (htokens : tree.tokens = token :: tokens) : token.type ≠ .arrayEnd := by
  cases tree with
  | scalar token' =>
    cases htokens
    intro htype
    rw [JsonSyntax.node, scalarNode, htype] at hnode
    cases hnode
  | array => cases htokens; decide
  | object => cases htokens; decide

theorem memberComplete_element {levels : Nat}
    (ih : ∀ {tree : JsonSyntax} {node reader s}, tree.node stod = some node →
      tree.nesting ≤ levels → (tree.trails = true → reader.allowTrailingComma = true) →
      Lexed reader.jsonPos tree.tokens s →
      buildValue stod levels false reader = .ok (node, reader.moveTo s)) :
    MemberComplete (fun _ reader => buildValue stod levels false reader)
      (SpellsNode stod levels allow) .arrayEnd allow := by
  rintro token reader _ node s hallow ⟨tree, rfl, hnode, hnesting, htrails⟩ hat h
  refine ⟨ih hnode hnesting (fun h => hallow.trans (htrails h)) h, tree.tokens_ne_nil, ?_⟩
  obtain ⟨first, tokens, htokens⟩ := List.exists_cons_of_ne_nil tree.tokens_ne_nil
  rw [htokens] at h
  obtain ⟨hfirst, -⟩ := h
  have heq := hat.token_eq
  rw [← hat.atRest, hfirst] at heq
  exact heq ▸ first_ne_close hnode htokens

theorem memberComplete_pair {levels : Nat}
    (ih : ∀ {tree : JsonSyntax} {node reader s}, tree.node stod = some node →
      tree.nesting ≤ levels → (tree.trails = true → reader.allowTrailingComma = true) →
      Lexed reader.jsonPos tree.tokens s →
      buildValue stod levels false reader = .ok (node, reader.moveTo s)) :
    MemberComplete (buildPair fun reader => buildValue stod levels false reader)
      (SpellsPair stod levels allow) .objectEnd allow := by
  rintro token reader _ ⟨k, node⟩ s hallow
    ⟨key, _, rfl, htype, hdecode, tree, rfl, hnode, hnesting, htrails⟩ hat h
  obtain ⟨hkey, -, h⟩ := h
  have heq := hat.token_eq
  rw [← hat.atRest, hkey] at heq
  cases heq
  rw [hat.atRest] at h
  obtain ⟨hcolon, s₁, hadvance, h⟩ := parseToken_lexed (reader.advance key) h
  refine ⟨?_, List.cons_ne_nil _ _, by rw [htype]; decide⟩
  unfold buildPair
  rw [if_neg (not_not.mpr htype), hdecode]
  have hnext := atToken_parseToken ((reader.advance key).moveTo s₁)
  cases hparse : ((reader.advance key).moveTo s₁).parseToken with
  | mk next reader₂ =>
    rw [hparse] at hnext
    have hpos : reader₂.jsonPos = eatWhitespaceAndComments s₁ := (parseToken_atToken hparse).2
    have hlexed : Lexed reader₂.jsonPos tree.tokens s :=
      hpos ▸ (lexed_eat tree.tokens_ne_nil).mpr h
    have hlexeme := hnext.lexeme hlexed tree.tokens_ne_nil
    have hreader₂ := (parseToken_valid hparse hlexeme.valid.1 hlexeme.valid.2).1
    have hallow₂ : reader₂.allowTrailingComma = allow :=
      (parseToken_allowTrailingComma hparse).trans hallow
    have hvalue := ih hnode hnesting (fun h => hallow₂.trans (htrails h)) hlexed
    have hmoved : reader₂.moveTo s = reader.moveTo s := by rw [hreader₂]; rfl
    simp only [hcolon, hadvance, hparse, hvalue, bind, Except.bind, hmoved, ne_eq,
      not_true_eq_false, if_false]

/-- The tokens of a document are read as its value. -/
theorem buildValue_complete (levels : Nat) (isRoot : Bool) {tree : JsonSyntax} {node : JsonNode}
    {reader : JsonReader} {s : Text} (hnode : tree.node stod = some node)
    (hnesting : tree.nesting ≤ levels)
    (htrails : tree.trails = true → reader.allowTrailingComma = true)
    (hroot : isRoot = true → tree.isContainer = true) (h : Lexed reader.jsonPos tree.tokens s) :
    buildValue stod levels isRoot reader = .ok (node, reader.moveTo s) := by
  induction levels generalizing isRoot tree node reader s with
  | zero => cases tree <;> simp [JsonSyntax.nesting] at hnesting
  | succ levels ih =>
    cases tree with
    | scalar token =>
      cases isRoot with
      | true => exact absurd (hroot rfl) (by simp [JsonSyntax.isContainer])
      | false =>
        obtain ⟨hparse, s', hadvance, hs⟩ := parseToken_lexed reader h
        cases hs
        rw [buildValue_scalar hparse hnode, hadvance]
    | array elements trailing =>
      rw [JsonSyntax.node, Option.map_eq_some_iff] at hnode
      obtain ⟨nodes, hnodes, rfl⟩ := hnode
      rw [JsonSyntax.nesting] at hnesting
      rw [JsonSyntax.trails, Bool.or_eq_true] at htrails
      obtain ⟨hparse, s', hadvance, h⟩ := parseToken_lexed reader h
      have hbuild := buildContainer_complete .list (reader.moveTo s')
        (memberComplete_element fun hnode hnesting htrails h => ih false hnode hnesting htrails
          (by simp) h) (by decide)
        (spells_of_elements hnodes (by omega) fun h => htrails (Or.inr h))
        (fun h => htrails (Or.inl h)) rfl rfl h
      unfold buildValue
      simp only [hparse, hadvance, hbuild, ne_eq, not_true_eq_false, and_false, if_false]
      rfl
    | object members trailing =>
      rw [JsonSyntax.node, Option.map_eq_some_iff] at hnode
      obtain ⟨pairs, hpairs, rfl⟩ := hnode
      rw [JsonSyntax.nesting] at hnesting
      rw [JsonSyntax.trails, Bool.or_eq_true] at htrails
      obtain ⟨hparse, s', hadvance, h⟩ := parseToken_lexed reader h
      have hbuild := buildContainer_complete (fun d => .dictionary (OrderedMap.lasts d))
        (reader.moveTo s')
        (memberComplete_pair fun hnode hnesting htrails h => ih false hnode hnesting htrails
          (by simp) h) (by decide)
        (spells_of_members hpairs (by omega) fun h => htrails (Or.inr h))
        (fun h => htrails (Or.inl h)) rfl rfl h
      unfold buildValue
      simp only [hparse, hadvance, hbuild, ne_eq, not_true_eq_false, false_and, and_false, if_false]
      rfl

end Values

/-! ## Layouts -/

/-- The tokens with blanks before them, up to a rest of the text. -/
inductive Written : List JsonToken → Text → Text → Prop
  | nil {rest : Text} : Written [] rest rest
  | cons {b s rest : Text} {token : JsonToken} {tokens : List JsonToken} (hb : Blank b)
      (htoken : Lexeme token) (hnumber : token.type = .number → NumberEnds s)
      (hs : Written tokens s rest) : Written (token :: tokens) (b ++ (token.text ++ s)) rest

theorem Written.lexed {tokens : List JsonToken} {s rest : Text} (h : Written tokens s rest) :
    Lexed s tokens rest := by
  induction h with
  | nil => rfl
  | @cons b s rest token tokens hb htoken hnumber hs ih =>
    have heat : eatWhitespaceAndComments (b ++ (token.text ++ s)) = token.text ++ s :=
      (eat_blank hb _).trans (htoken.atRest s)
    refine ⟨?_, htoken, ?_⟩
    · rw [heat]
      exact tokenAt_append htoken hnumber
    · rw [heat, List.drop_left]
      exact ih

/-- The tokens a number may be followed by. -/
def EndsNumber (token : JsonToken) : Prop :=
  token.type = .listSeparator ∨ token.type = .arrayEnd ∨ token.type = .objectEnd

/-- Every number that is followed by a token is followed by one that ends it. -/
def NumbersEnd : List JsonToken → Prop
  | [] => True
  | [_] => True
  | token :: next :: tokens =>
    (token.type = .number → EndsNumber next) ∧ NumbersEnd (next :: tokens)

/-- A blank ends a number. -/
theorem numberEnds_of_eat {s : Text} (h : NumberEnds (eatWhitespaceAndComments s)) :
    NumberEnds s := by
  cases s with
  | nil => exact fun c hc => nomatch hc
  | cons c s =>
    by_cases hspace : isJsonSpace c = true
    · rintro _ ⟨⟩
      simp only [isJsonSpace, Bool.or_eq_true, beq_iff_eq] at hspace
      rcases hspace with ((rfl | rfl) | rfl) | rfl <;> decide
    · by_cases hslash : c = '/'
      · rintro _ ⟨⟩
        rw [hslash]
        decide
      · have hrest : AtRest (c :: s) := atRest_cons s (by simpa using hspace) hslash
        rwa [hrest] at h

theorem numberEnds_of_endsNumber {token : JsonToken} (htoken : Lexeme token)
    (h : EndsNumber token) (s : Text) : NumberEnds (token.text ++ s) := by
  obtain ⟨type, text⟩ := token
  rcases h with rfl | rfl | rfl
  all_goals
    rw [show text = _ from htoken]
    rintro _ ⟨⟩
    decide

theorem written_of_lexed {s rest : Text} {tokens : List JsonToken} (h : Lexed s tokens rest)
    (hnumbers : NumbersEnd tokens) (hrest : NumberEnds rest) : Written tokens s rest := by
  induction tokens generalizing s with
  | nil =>
    cases h
    exact .nil
  | cons token tokens ih =>
    obtain ⟨hat, htoken, h⟩ := h
    have hfound := tokenAt_found (eatWhitespaceAndComments s)
    rw [hat] at hfound
    have hsplit : ∃ s', eatWhitespaceAndComments s = token.text ++ s' := by
      cases hfound with
      | lexeme _ hs => exact ⟨_, hs⟩
      | endOfInput => cases htoken
      | invalid => cases htoken
    obtain ⟨s', heat⟩ := hsplit
    obtain ⟨-, b, hs, hb⟩ := eatFrom_spec .whitespace s
    have hs : s = b ++ eatWhitespaceAndComments s := hs
    have hblank : Blank b := by
      refine (hb.resolve_right fun hnil => ?_).blank
      have hnil : eatWhitespaceAndComments s = [] := hnil
      rw [heat, List.append_eq_nil_iff] at hnil
      exact htoken.ne_nil hnil.1
    rw [heat, List.drop_left] at h
    rw [hs, heat]
    cases tokens with
    | nil =>
      cases h
      exact .cons hblank htoken (fun _ => hrest) .nil
    | cons next tokens =>
      refine .cons hblank htoken (fun hnumber => numberEnds_of_eat ?_) (ih h hnumbers.2)
      obtain ⟨hat', hnext, -⟩ := h
      have hfound' := tokenAt_found (eatWhitespaceAndComments s')
      rw [hat'] at hfound'
      cases hfound' with
      | lexeme _ hs' =>
        rw [hs']
        exact numberEnds_of_endsNumber hnext (hnumbers.1 hnumber) _
      | endOfInput => cases hnext
      | invalid => cases hnext

/-- The numbers among the tokens end where a token that ends a number comes next. -/
def Closed (tokens : List JsonToken) : Prop :=
  ∀ ⦃next rest⦄, EndsNumber next → NumbersEnd (next :: rest) → NumbersEnd (tokens ++ next :: rest)

theorem numbersEnd_cons {token : JsonToken} {tokens : List JsonToken}
    (htype : token.type ≠ .number) (h : NumbersEnd tokens) : NumbersEnd (token :: tokens) := by
  cases tokens with
  | nil => trivial
  | cons next tokens => exact ⟨fun hnumber => absurd hnumber htype, h⟩

theorem closed_cons {token : JsonToken} {tokens : List JsonToken} (htype : token.type ≠ .number)
    (h : Closed tokens) : Closed (token :: tokens) := by
  intro next rest hnext hrest
  exact numbersEnd_cons htype (h hnext hrest)

theorem closed_separated {members : List (List JsonToken)} (trailing : Bool)
    (h : ∀ ts ∈ members, Closed ts) : Closed (separated members trailing) := by
  have hcomma : EndsNumber commaToken := Or.inl rfl
  have hcomma' : commaToken.type ≠ .number := by decide
  induction members with
  | nil => exact fun next rest _ hrest => hrest
  | cons member members ih =>
    rw [List.forall_mem_cons] at h
    intro next rest hnext hrest
    cases members with
    | nil =>
      cases trailing with
      | false => exact h.1 hnext hrest
      | true =>
        have hmember := h.1 hcomma (numbersEnd_cons hcomma' hrest)
        simpa [separated] using hmember
    | cons next' members =>
      rw [separated_cons member (List.cons_ne_nil _ _), List.append_assoc]
      exact h.1 hcomma (numbersEnd_cons hcomma' (ih h.2 hnext hrest))

theorem closed_container {opening closing : JsonToken} {members : List (List JsonToken)}
    (trailing : Bool) (hopening : opening.type ≠ .number) (hclosing : EndsNumber closing)
    (h : ∀ ts ∈ members, Closed ts) :
    Closed (opening :: (separated members trailing ++ [closing])) := by
  refine closed_cons hopening fun next rest hnext hrest => ?_
  have htype : closing.type ≠ .number := by
    rcases hclosing with h | h | h <;> (rw [h]; decide)
  rw [List.append_assoc]
  exact closed_separated trailing h hclosing (numbersEnd_cons htype hrest)

mutual

theorem JsonSyntax.closed {stod : Text → Stod} :
    ∀ (tree : JsonSyntax) (node : JsonNode), tree.node stod = some node → Closed tree.tokens
  | .scalar _, _, _ => fun _ _ hnext hrest => ⟨fun _ => hnext, hrest⟩
  | .array elements trailing, _, h => by
    obtain ⟨nodes, hnodes, -⟩ := Option.map_eq_some_iff.mp h
    exact closed_container trailing (by decide) (Or.inr (Or.inl rfl))
      (elements_closed elements nodes hnodes)
  | .object members trailing, _, h => by
    obtain ⟨pairs, hpairs, -⟩ := Option.map_eq_some_iff.mp h
    exact closed_container trailing (by decide) (Or.inr (Or.inr rfl))
      (members_closed members pairs hpairs)

theorem elements_closed {stod : Text → Stod} :
    ∀ (elements : List JsonSyntax) (nodes : List JsonNode),
      elementNodes stod elements = some nodes → ∀ ts ∈ elementTokens elements, Closed ts
  | [], _, _ => fun _ hts => absurd hts List.not_mem_nil
  | element :: elements, _, h => by
    simp only [elementNodes, Option.bind_eq_some_iff, Option.map_eq_some_iff] at h
    obtain ⟨node, hnode, nodes, hnodes, -⟩ := h
    rw [elementTokens, List.forall_mem_cons]
    exact ⟨element.closed node hnode, elements_closed elements nodes hnodes⟩

theorem members_closed {stod : Text → Stod} :
    ∀ (members : List (JsonToken × JsonSyntax)) (pairs : List (Text × JsonNode)),
      memberNodes stod members = some pairs → ∀ ts ∈ memberTokens members, Closed ts
  | [], _, _ => fun _ hts => absurd hts List.not_mem_nil
  | (key, value) :: members, _, h => by
    simp only [memberNodes, Option.bind_eq_some_iff, Option.map_eq_some_iff] at h
    obtain ⟨k, hkey, node, hnode, pairs, hpairs, -⟩ := h
    have htype : key.type ≠ .number := by
      intro hnumber
      rw [hnumber] at hkey
      cases hkey
    rw [memberTokens, List.forall_mem_cons]
    exact ⟨closed_cons htype (closed_cons (by simp) (value.closed node hnode)),
      members_closed members pairs hpairs⟩

end

theorem numbersEnd_of_append {tokens tokens' : List JsonToken}
    (h : NumbersEnd (tokens ++ tokens')) : NumbersEnd tokens := by
  induction tokens with
  | nil => trivial
  | cons token tokens ih =>
    cases tokens with
    | nil => trivial
    | cons next tokens => exact ⟨h.1, ih h.2⟩

theorem JsonSyntax.numbersEnd {stod : Text → Stod} {tree : JsonSyntax} {node : JsonNode}
    (h : tree.node stod = some node) : NumbersEnd tree.tokens :=
  numbersEnd_of_append (@JsonSyntax.closed stod tree node h commaToken [] (Or.inl rfl) trivial)

/-! ## Texts -/

/-- A document from the start of a text on, and then nothing but blanks, up to the end or to a
terminator within the text. -/
def IsDocument (stod : Text → Stod) (checkRoot allow : Bool) (json : Text) (node : JsonNode) :
    Prop :=
  ∃ (tree : JsonSyntax) (rest : Text), tree.node stod = some node ∧ tree.nesting ≤ kStackLimit ∧
    (tree.trails = true → allow = true) ∧ (checkRoot = true → tree.isContainer = true) ∧
    Written tree.tokens (withoutByteOrderMark json) rest ∧
    cStr (eatWhitespaceAndComments rest) = []

theorem numberEnds_of_cStr {s : Text} (h : cStr s = []) : NumberEnds s := by
  cases s with
  | nil => exact fun c hc => nomatch hc
  | cons c s =>
    rintro _ ⟨⟩
    have hc : c = '\x00' := by
      by_contra hc
      simp [cStr, hc] at h
    rw [hc]
    decide

theorem tokenAt_endOfInput {s : Text} : (tokenAt s).1.type = .endOfInput ↔ cStr s = [] := by
  constructor
  · intro h
    have hfound := tokenAt_found s
    cases hat : tokenAt s with
    | mk token error =>
      rw [hat] at h hfound
      cases hfound with
      | lexeme ht _ => exact absurd h ht.valid.2
      | endOfInput hs => exact hs
      | invalid => cases h
      | invalidEscape => cases h
  · intro h
    cases s with
    | nil => rfl
    | cons c s =>
      have hc : c = '\x00' := by
        by_contra hc
        simp [cStr, hc] at h
      rw [hc]
      rfl

theorem parseToken_endOfInput (reader : JsonReader)
    (h : cStr (eatWhitespaceAndComments reader.jsonPos) = []) :
    reader.parseToken.1.type = .endOfInput ∧
      reader.parseToken.2 = reader.moveTo (eatWhitespaceAndComments reader.jsonPos) := by
  have hend := tokenAt_endOfInput.mpr h
  have hfound := tokenAt_found (eatWhitespaceAndComments reader.jsonPos)
  cases hat : tokenAt (eatWhitespaceAndComments reader.jsonPos) with
  | mk token error =>
    rw [hat] at hend hfound
    cases hfound with
    | lexeme ht _ => exact absurd hend ht.valid.2
    | endOfInput hs =>
      rw [parseToken_of_tokenAt hat]
      exact ⟨rfl, rfl⟩
    | invalid => cases hend
    | invalidEscape => cases hend

theorem isDocument_of_ok {stod : Text → Stod} {json : Text} {checkRoot allow : Bool}
    {node : JsonNode} {reader : JsonReader}
    (h : jsonToValue stod json checkRoot allow = .ok (node, reader)) :
    IsDocument stod checkRoot allow json node := by
  unfold jsonToValue at h
  cases hbuild : buildValue stod kStackLimit checkRoot (.start json allow) with
  | error e =>
    rw [hbuild] at h
    cases e <;> cases h
  | ok result =>
    obtain ⟨root, reader₁⟩ := result
    obtain ⟨tree, s, hnode, hnesting, htrails, hroot, hlexed, rfl⟩ :=
      buildValue_sound kStackLimit checkRoot hbuild
    rw [hbuild] at h
    cases hparse : ((JsonReader.start json allow).moveTo s).parseToken with
    | mk token reader₂ =>
      simp only [hparse] at h
      split at h
      · rename_i hend
        cases h
        obtain ⟨hat, hpos⟩ := parseToken_atToken hparse
        rw [← hat.token_eq, hpos] at hend
        have hend := tokenAt_endOfInput.mp hend
        have hrest : NumberEnds s := numberEnds_of_eat (numberEnds_of_cStr hend)
        exact ⟨tree, s, hnode, hnesting, htrails, hroot,
          written_of_lexed hlexed (JsonSyntax.numbersEnd hnode) hrest, hend⟩
      · cases h

theorem ok_of_isDocument {stod : Text → Stod} {json : Text} {checkRoot allow : Bool}
    {node : JsonNode} (h : IsDocument stod checkRoot allow json node) :
    ∃ reader, jsonToValue stod json checkRoot allow = .ok (node, reader) ∧
      reader.errorCode = .noError := by
  obtain ⟨tree, rest, hnode, hnesting, htrails, hroot, hwritten, hend⟩ := h
  have hlexed : Lexed (JsonReader.start json allow).jsonPos tree.tokens rest := hwritten.lexed
  have hbuild := buildValue_complete kStackLimit checkRoot hnode hnesting htrails hroot hlexed
  obtain ⟨htype, hreader⟩ := parseToken_endOfInput ((JsonReader.start json allow).moveTo rest) hend
  refine ⟨_, ?_, congrArg JsonReader.errorCode hreader⟩
  unfold jsonToValue
  simp only [hbuild]
  rw [if_pos htype]

/-- A text is accepted exactly if it is a document, as the value of the document, and no error is
set then. -/
theorem jsonToValue_ok_iff (stod : Text → Stod) (json : Text) (checkRoot allow : Bool)
    (node : JsonNode) :
    (∃ reader, jsonToValue stod json checkRoot allow = .ok (node, reader) ∧
      reader.errorCode = .noError) ↔ IsDocument stod checkRoot allow json node :=
  ⟨fun ⟨_, h, _⟩ => isDocument_of_ok h, ok_of_isDocument⟩

end Psych
