import Psych.Load.JsonDocuments

/-!
# Writing JSON

Tokens may be written with any blanks before them (`Written`). What the reader returns is
`Readable`, and every readable value has a document of its own (`JsonNode.document`): a value that
was read is read again from any text that document is written as.
-/

namespace Psych

/-! ## Documents in any layout -/

theorem blank_no_mark {b : Text} (h : Blank b) : b.head? ≠ some '\xef' := by
  cases h with
  | nil => simp
  | space hc hb =>
    rintro ⟨⟩
    exact absurd hc (by decide)
  | lineComment => simp
  | blockComment => simp

/-- A text that starts with a token has no byte order mark. -/
theorem Written.no_mark {token : JsonToken} {tokens : List JsonToken} {s rest : Text}
    (h : Written (token :: tokens) s rest) : withoutByteOrderMark s = s := by
  have hhead : s.head? ≠ some '\xef' := by
    cases h with
    | @cons b s rest _ _ hb htoken hnumber hs =>
      cases b with
      | nil =>
        obtain ⟨c, text, htext, -, -, hc⟩ := htoken.head
        rw [htext]
        simpa using hc
      | cons c b =>
        have hc := blank_no_mark hb
        simpa using hc
  unfold withoutByteOrderMark
  split
  · simp at hhead
  · rfl

/-- A document is accepted in any layout, with a blank after it. -/
theorem isDocument_written {stod : Text → Stod} {checkRoot allow : Bool} {tree : JsonSyntax}
    {node : JsonNode} {json rest : Text} (hnode : tree.node stod = some node)
    (hnesting : tree.nesting ≤ kStackLimit) (htrails : tree.trails = true → allow = true)
    (hroot : checkRoot = true → tree.isContainer = true) (h : Written tree.tokens json rest)
    (hrest : Blank rest) : IsDocument stod checkRoot allow json node := by
  refine ⟨tree, rest, hnode, hnesting, htrails, hroot, ?_, ?_⟩
  · have hmark : withoutByteOrderMark json = json := by
      obtain ⟨token, tokens, htokens⟩ := List.exists_cons_of_ne_nil tree.tokens_ne_nil
      rw [htokens] at h
      exact h.no_mark
    rw [hmark]
    exact h
  · have heat := eat_blank hrest []
    rw [List.append_nil] at heat
    rw [heat]
    rfl

/-! ## Texts of strings and numbers -/

/-- A string with its quotes and backslashes escaped. -/
def escaped : Text → Text
  | [] => []
  | c :: s => if c = '"' ∨ c = '\\' then '\\' :: c :: escaped s else c :: escaped s

def stringToken (s : Text) : JsonToken := ⟨.string, '"' :: escaped s ++ ['"']⟩

theorem stringBody_escaped (s : Text) : StringBody (escaped s) := by
  induction s with
  | nil => exact .nil
  | cons c s ih =>
    rw [escaped]
    split
    · rename_i hc
      refine .escape ?_ ih
      rcases hc with rfl | rfl <;> decide
    · rename_i hc
      rw [not_or] at hc
      exact .plain hc.2 hc.1 ih

theorem decodeBody_escaped (s : Text) : decodeBody (escaped s) = some s := by
  induction s with
  | nil => rfl
  | cons c s ih =>
    rw [escaped]
    split
    · rename_i hc
      have hx : c ≠ 'x' := by rcases hc with rfl | rfl <;> decide
      have hsimple : simpleEscape c = some c := by rcases hc with rfl | rfl <;> rfl
      rw [decodeBody.eq_def]
      simp only [if_true, if_neg hx, hsimple, ih, Option.map_some]
    · rename_i hc
      rw [not_or] at hc
      rw [decodeBody.eq_def]
      simp only [if_neg hc.2, ih, Option.map_some]

theorem lexeme_stringToken (s : Text) : Lexeme (stringToken s) :=
  ⟨escaped s, stringBody_escaped s, rfl⟩

theorem decodeString_stringToken (s : Text) : decodeString (stringToken s) = some s := by
  have hbody : ((stringToken s).text.drop 1).dropLast = escaped s := by
    simp [stringToken]
  rw [decodeString, hbody, decodeBody_escaped]

/-- The number of an `int`. -/
def integerToken (n : Int) : JsonToken := ⟨.number, (intToString n).getD []⟩

theorem integerToken_spec {n : Int} (hmin : intMin ≤ n) (hmax : n ≤ intMax) :
    Lexeme (integerToken n) ∧ stringToInt (integerToken n).text = some n := by
  obtain ⟨sign, digits, hwrite, hsign, hne, hdigits, hhead, hspells⟩ := intToString_spec hmin hmax
  have htext : (integerToken n).text = sign ++ digits := by
    rw [integerToken, hwrite]
    rfl
  refine ⟨⟨sign, digits, [], [], hsign, ⟨hne, hdigits, fun _ => hhead⟩, Or.inl rfl, Or.inl rfl, ?_⟩,
    ?_⟩
  · rw [List.append_nil, List.append_nil]
    exact htext
  · rw [htext]
    exact (stringToInt_iff _ _).mpr hspells

/-! ## Values and their documents -/

mutual

/-- The values that the reader returns. -/
def JsonNode.Readable (stod : Text → Stod) : JsonNode → Prop
  | .integer n => intMin ≤ n ∧ n ≤ intMax
  | .double literal => stringToInt literal = none ∧ stod literal = .finite ∧ IsNumber literal
  | .list l => ReadableElements stod l
  | .dictionary d => OrderedMap.Sorted d ∧ ReadableMembers stod d
  | _ => True

def ReadableElements (stod : Text → Stod) : List JsonNode → Prop
  | [] => True
  | node :: l => node.Readable stod ∧ ReadableElements stod l

def ReadableMembers (stod : Text → Stod) : List (Text × JsonNode) → Prop
  | [] => True
  | (_, node) :: d => node.Readable stod ∧ ReadableMembers stod d

end

mutual

/-- A document with the value. -/
def JsonNode.document : JsonNode → JsonSyntax
  | .null => .scalar ⟨.nullToken, "null".toList⟩
  | .boolean true => .scalar ⟨.boolTrue, "true".toList⟩
  | .boolean false => .scalar ⟨.boolFalse, "false".toList⟩
  | .integer n => .scalar (integerToken n)
  | .double literal => .scalar ⟨.number, literal⟩
  | .string s => .scalar (stringToken s)
  | .list l => .array (elementDocuments l) false
  | .dictionary d => .object (memberDocuments d) false

def elementDocuments : List JsonNode → List JsonSyntax
  | [] => []
  | node :: l => node.document :: elementDocuments l

def memberDocuments : List (Text × JsonNode) → List (JsonToken × JsonSyntax)
  | [] => []
  | (key, node) :: d => (stringToken key, node.document) :: memberDocuments d

end

mutual

theorem JsonNode.node_document {stod : Text → Stod} :
    ∀ (node : JsonNode), node.Readable stod → node.document.node stod = some node
  | .null, _ => rfl
  | .boolean true, _ => rfl
  | .boolean false, _ => rfl
  | .integer n, h => by
    simp only [JsonNode.document, JsonSyntax.node, scalarNode]
    have htype : (integerToken n).type = .number := rfl
    rw [htype, (integerToken_spec h.1 h.2).2]
  | .double literal, h => by
    obtain ⟨hint, hstod, -⟩ := h
    simp only [JsonNode.document, JsonSyntax.node, scalarNode, hint, hstod, if_true]
  | .string s, _ => by
    simp only [JsonNode.document, JsonSyntax.node, scalarNode]
    have htype : (stringToken s).type = .string := rfl
    rw [htype, decodeString_stringToken]
    rfl
  | .list l, h => by
    rw [JsonNode.document, JsonSyntax.node, elementNodes_documents l h]
    rfl
  | .dictionary d, h => by
    rw [JsonNode.document, JsonSyntax.node, memberNodes_documents d h.2, Option.map_some,
      OrderedMap.lasts_of_sorted h.1]

theorem elementNodes_documents {stod : Text → Stod} :
    ∀ (l : List JsonNode), ReadableElements stod l →
      elementNodes stod (elementDocuments l) = some l
  | [], _ => rfl
  | node :: l, h => by
    simp only [elementDocuments, elementNodes, node.node_document h.1, elementNodes_documents l h.2,
      Option.bind_some, Option.map_some]

theorem memberNodes_documents {stod : Text → Stod} :
    ∀ (d : List (Text × JsonNode)), ReadableMembers stod d →
      memberNodes stod (memberDocuments d) = some d
  | [], _ => rfl
  | (key, node) :: d, h => by
    have htype : (stringToken key).type = .string := rfl
    simp only [memberDocuments, memberNodes, htype, if_true, decodeString_stringToken,
      node.node_document h.1, memberNodes_documents d h.2, Option.bind_some, Option.map_some]

end

/-! ## What the reader returns -/

theorem readableMembers_iff {stod : Text → Stod} {d : List (Text × JsonNode)} :
    ReadableMembers stod d ↔ ∀ e ∈ d, e.2.Readable stod := by
  induction d with
  | nil => exact ⟨fun _ e he => absurd he List.not_mem_nil, fun _ => trivial⟩
  | cons e d ih =>
    rw [ReadableMembers, ih, List.forall_mem_cons]

theorem memberNesting_le_iff {members : List (JsonToken × JsonSyntax)} {n : Nat} :
    memberNesting members ≤ n ↔ ∀ m ∈ members, m.2.nesting ≤ n := by
  induction members with
  | nil => exact ⟨fun _ m hm => absurd hm List.not_mem_nil, fun _ => Nat.zero_le n⟩
  | cons m members ih =>
    rw [memberNesting, Nat.max_le, ih, List.forall_mem_cons]

theorem memberDocuments_eq_map (d : List (Text × JsonNode)) :
    memberDocuments d = d.map fun e => (stringToken e.1, e.2.document) := by
  induction d with
  | nil => rfl
  | cons e d ih => rw [memberDocuments, ih, List.map_cons]

theorem scalarNode_readable {stod : Text → Stod} {token : JsonToken} {node : JsonNode}
    (htoken : Lexeme token) (h : scalarNode stod token = some node) :
    node.Readable stod ∧ node.document.nesting = 1 := by
  obtain ⟨type, text⟩ := token
  cases type with
  | number =>
    simp only [scalarNode] at h
    cases hint : stringToInt text with
    | some n =>
      simp only [hint, Option.some.injEq] at h
      subst h
      exact ⟨((stringToInt_iff text n).mp hint).bounds, rfl⟩
    | none =>
      simp only [hint] at h
      split at h
      · rename_i hstod
        cases h
        exact ⟨⟨hint, hstod, htoken⟩, rfl⟩
      · cases h
  | string =>
    simp only [scalarNode, Option.map_eq_some_iff] at h
    obtain ⟨s, -, rfl⟩ := h
    exact ⟨trivial, rfl⟩
  | nullToken => cases h; exact ⟨trivial, rfl⟩
  | boolTrue => cases h; exact ⟨trivial, rfl⟩
  | boolFalse => cases h; exact ⟨trivial, rfl⟩
  | _ => cases h

theorem mem_separated {members : List (List JsonToken)} {member : List JsonToken}
    {token : JsonToken} (hmember : member ∈ members) (htoken : token ∈ member) (trailing : Bool) :
    token ∈ separated members trailing := by
  induction members with
  | nil => cases hmember
  | cons first members ih =>
    cases members with
    | nil =>
      cases List.mem_singleton.mp hmember
      cases trailing with
      | false => exact htoken
      | true => exact List.mem_append_left _ htoken
    | cons next members =>
      rw [separated_cons first (List.cons_ne_nil _ _)]
      rcases List.mem_cons.mp hmember with rfl | hmember
      · exact List.mem_append_left _ htoken
      · exact List.mem_append_right _ (List.mem_cons_of_mem _ (ih hmember))

mutual

theorem JsonSyntax.readable {stod : Text → Stod} :
    ∀ (tree : JsonSyntax) (node : JsonNode), (∀ t ∈ tree.tokens, Lexeme t) →
      tree.node stod = some node →
      node.Readable stod ∧ node.document.nesting ≤ tree.nesting
  | .scalar token, node, htokens, h => by
    obtain ⟨hreadable, hnesting⟩ :=
      scalarNode_readable (htokens token List.mem_cons_self) h
    exact ⟨hreadable, hnesting.le⟩
  | .array elements trailing, node, htokens, h => by
    rw [JsonSyntax.node, Option.map_eq_some_iff] at h
    obtain ⟨nodes, hnodes, rfl⟩ := h
    have helements : ∀ ts ∈ elementTokens elements, ∀ t ∈ ts, Lexeme t := fun ts hts t ht =>
      htokens t (List.mem_cons_of_mem _ (List.mem_append_left _ (mem_separated hts ht trailing)))
    obtain ⟨hreadable, hnesting⟩ := elements_readable elements nodes helements hnodes
    refine ⟨hreadable, ?_⟩
    rw [JsonNode.document, JsonSyntax.nesting, JsonSyntax.nesting]
    omega
  | .object members trailing, node, htokens, h => by
    rw [JsonSyntax.node, Option.map_eq_some_iff] at h
    obtain ⟨pairs, hpairs, rfl⟩ := h
    have hmembers : ∀ ts ∈ memberTokens members, ∀ t ∈ ts, Lexeme t := fun ts hts t ht =>
      htokens t (List.mem_cons_of_mem _ (List.mem_append_left _ (mem_separated hts ht trailing)))
    have hall := members_readable members pairs hmembers hpairs
    refine ⟨⟨OrderedMap.sorted_lasts pairs, readableMembers_iff.mpr fun e he =>
      (hall e (OrderedMap.mem_lasts he)).1⟩, ?_⟩
    have hnesting : memberNesting (memberDocuments (OrderedMap.lasts pairs)) ≤
        memberNesting members := by
      rw [memberNesting_le_iff, memberDocuments_eq_map]
      intro m hm
      obtain ⟨e, he, rfl⟩ := List.mem_map.mp hm
      exact (hall e (OrderedMap.mem_lasts he)).2
    rw [JsonNode.document, JsonSyntax.nesting, JsonSyntax.nesting]
    omega

theorem elements_readable {stod : Text → Stod} :
    ∀ (elements : List JsonSyntax) (nodes : List JsonNode),
      (∀ ts ∈ elementTokens elements, ∀ t ∈ ts, Lexeme t) →
      elementNodes stod elements = some nodes →
      ReadableElements stod nodes ∧
        elementNesting (elementDocuments nodes) ≤ elementNesting elements
  | [], nodes, _, h => by
    cases h
    exact ⟨trivial, Nat.le_refl _⟩
  | element :: elements, nodes, htokens, h => by
    simp only [elementNodes, Option.bind_eq_some_iff, Option.map_eq_some_iff] at h
    obtain ⟨node, hnode, nodes, hnodes, rfl⟩ := h
    obtain ⟨hreadable, hnesting⟩ :=
      element.readable node (htokens _ List.mem_cons_self) hnode
    obtain ⟨hreadables, hnestings⟩ :=
      elements_readable elements nodes (fun ts hts => htokens ts (List.mem_cons_of_mem _ hts))
        hnodes
    refine ⟨⟨hreadable, hreadables⟩, ?_⟩
    rw [elementDocuments, elementNesting, elementNesting]
    omega

theorem members_readable {stod : Text → Stod} :
    ∀ (members : List (JsonToken × JsonSyntax)) (pairs : List (Text × JsonNode)),
      (∀ ts ∈ memberTokens members, ∀ t ∈ ts, Lexeme t) →
      memberNodes stod members = some pairs →
      ∀ e ∈ pairs, e.2.Readable stod ∧ e.2.document.nesting ≤ memberNesting members
  | [], pairs, _, h => by
    cases h
    exact fun e he => absurd he List.not_mem_nil
  | (key, value) :: members, pairs, htokens, h => by
    simp only [memberNodes, Option.bind_eq_some_iff, Option.map_eq_some_iff] at h
    obtain ⟨k, -, node, hnode, pairs, hpairs, rfl⟩ := h
    have hvalue : ∀ t ∈ value.tokens, Lexeme t := fun t ht =>
      htokens _ List.mem_cons_self t (List.mem_cons_of_mem _ (List.mem_cons_of_mem _ ht))
    obtain ⟨hreadable, hnesting⟩ := value.readable node hvalue hnode
    have hrest := members_readable members pairs
      (fun ts hts => htokens ts (List.mem_cons_of_mem _ hts)) hpairs
    intro e he
    rw [memberNesting]
    rcases List.mem_cons.mp he with rfl | he
    · exact ⟨hreadable, hnesting.trans (Nat.le_max_left _ _)⟩
    · exact ⟨(hrest e he).1, (hrest e he).2.trans (Nat.le_max_right _ _)⟩

end

theorem Written.lexemes {tokens : List JsonToken} {s rest : Text} (h : Written tokens s rest) :
    ∀ t ∈ tokens, Lexeme t := by
  induction h with
  | nil => exact fun t ht => absurd ht List.not_mem_nil
  | cons hb htoken hnumber hs ih =>
    rw [List.forall_mem_cons]
    exact ⟨htoken, ih⟩

theorem separated_lexemes {members : List (List JsonToken)} (trailing : Bool)
    (h : ∀ ts ∈ members, ∀ t ∈ ts, Lexeme t) : ∀ t ∈ separated members trailing, Lexeme t := by
  induction members with
  | nil => exact fun t ht => absurd ht List.not_mem_nil
  | cons first members ih =>
    rw [List.forall_mem_cons] at h
    cases members with
    | nil =>
      cases trailing with
      | false => exact h.1
      | true =>
        intro t ht
        rcases List.mem_append.mp ht with ht | ht
        · exact h.1 t ht
        · cases List.mem_singleton.mp ht
          rfl
    | cons next members =>
      rw [separated_cons first (List.cons_ne_nil _ _)]
      intro t ht
      rcases List.mem_append.mp ht with ht | ht
      · exact h.1 t ht
      · rcases List.mem_cons.mp ht with rfl | ht
        · rfl
        · exact ih h.2 t ht

/-- An array or an object of lexemes. -/
theorem container_lexemes {opening closing : JsonToken} {members : List (List JsonToken)}
    (trailing : Bool) (hopening : Lexeme opening) (hclosing : Lexeme closing)
    (h : ∀ ts ∈ members, ∀ t ∈ ts, Lexeme t) :
    ∀ t ∈ opening :: (separated members trailing ++ [closing]), Lexeme t := by
  rw [List.forall_mem_cons]
  refine ⟨hopening, fun t ht => ?_⟩
  rcases List.mem_append.mp ht with ht | ht
  · exact separated_lexemes trailing h t ht
  · cases List.mem_singleton.mp ht
    exact hclosing

mutual

theorem JsonNode.document_lexemes {stod : Text → Stod} :
    ∀ (node : JsonNode), node.Readable stod → ∀ t ∈ node.document.tokens, Lexeme t
  | .null, _ => fun _ ht => List.mem_singleton.mp ht ▸ rfl
  | .boolean true, _ => fun _ ht => List.mem_singleton.mp ht ▸ rfl
  | .boolean false, _ => fun _ ht => List.mem_singleton.mp ht ▸ rfl
  | .integer _, h => fun _ ht => List.mem_singleton.mp ht ▸ (integerToken_spec h.1 h.2).1
  | .double _, h => fun _ ht => List.mem_singleton.mp ht ▸ h.2.2
  | .string s, _ => fun _ ht => List.mem_singleton.mp ht ▸ lexeme_stringToken s
  | .list l, h => container_lexemes false rfl rfl (elementDocuments_lexemes l h)
  | .dictionary d, h => container_lexemes false rfl rfl (memberDocuments_lexemes d h.2)

theorem elementDocuments_lexemes {stod : Text → Stod} :
    ∀ (l : List JsonNode), ReadableElements stod l →
      ∀ ts ∈ elementTokens (elementDocuments l), ∀ t ∈ ts, Lexeme t
  | [], _ => fun _ hts => absurd hts List.not_mem_nil
  | node :: l, h => by
    rw [elementDocuments, elementTokens, List.forall_mem_cons]
    exact ⟨node.document_lexemes h.1, elementDocuments_lexemes l h.2⟩

theorem memberDocuments_lexemes {stod : Text → Stod} :
    ∀ (d : List (Text × JsonNode)), ReadableMembers stod d →
      ∀ ts ∈ memberTokens (memberDocuments d), ∀ t ∈ ts, Lexeme t
  | [], _ => fun _ hts => absurd hts List.not_mem_nil
  | (key, node) :: d, h => by
    rw [memberDocuments, memberTokens, List.forall_mem_cons]
    refine ⟨?_, memberDocuments_lexemes d h.2⟩
    rw [List.forall_mem_cons, List.forall_mem_cons]
    exact ⟨lexeme_stringToken key, rfl, node.document_lexemes h.1⟩

end

mutual

/-- No document of a value has a trailing comma. -/
theorem JsonNode.document_trails : ∀ (node : JsonNode), node.document.trails = false
  | .null => rfl
  | .boolean true => rfl
  | .boolean false => rfl
  | .integer _ => rfl
  | .double _ => rfl
  | .string _ => rfl
  | .list l => elementDocuments_trails l
  | .dictionary d => memberDocuments_trails d

theorem elementDocuments_trails : ∀ (l : List JsonNode), elementTrails (elementDocuments l) = false
  | [] => rfl
  | node :: l => by
    rw [elementDocuments, elementTrails, node.document_trails, elementDocuments_trails l,
      Bool.or_false]

theorem memberDocuments_trails :
    ∀ (d : List (Text × JsonNode)), memberTrails (memberDocuments d) = false
  | [] => rfl
  | (_, node) :: d => by
    rw [memberDocuments, memberTrails, node.document_trails, memberDocuments_trails d,
      Bool.or_false]

end

/-! ## Reading again -/

/-- Tokens with a space before each. -/
def spaced : List JsonToken → Text
  | [] => []
  | token :: tokens => ' ' :: (token.text ++ spaced tokens)

theorem written_spaced {tokens : List JsonToken} (h : ∀ t ∈ tokens, Lexeme t) :
    Written tokens (spaced tokens) [] := by
  induction tokens with
  | nil => exact .nil
  | cons token tokens ih =>
    rw [List.forall_mem_cons] at h
    refine @Written.cons [' '] (spaced tokens) [] token tokens (.space rfl .nil) h.1 ?_ (ih h.2)
    intro _ c hc
    cases tokens with
    | nil => cases hc
    | cons next tokens =>
      cases hc
      decide

/-- A text of a value. -/
def JsonNode.json (node : JsonNode) : Text := spaced node.document.tokens

/-- What a text may be read as. -/
structure JsonNode.IsRead (stod : Text → Stod) (checkRoot : Bool) (node : JsonNode) : Prop where
  readable : node.Readable stod
  nesting : node.document.nesting ≤ kStackLimit
  root : checkRoot = true → node.document.isContainer = true

theorem isDocument_isRead {stod : Text → Stod} {checkRoot allow : Bool} {json : Text}
    {node : JsonNode} (h : IsDocument stod checkRoot allow json node) :
    node.IsRead stod checkRoot := by
  obtain ⟨tree, rest, hnode, hnesting, -, hroot, hwritten, -⟩ := h
  obtain ⟨hreadable, hdocument⟩ := tree.readable node hwritten.lexemes hnode
  refine ⟨hreadable, hdocument.trans hnesting, fun hcheck => ?_⟩
  have hcontainer := hroot hcheck
  cases tree with
  | scalar => cases hcontainer
  | array =>
    obtain ⟨nodes, -, rfl⟩ := Option.map_eq_some_iff.mp hnode
    rfl
  | object =>
    obtain ⟨pairs, -, rfl⟩ := Option.map_eq_some_iff.mp hnode
    rfl

theorem isDocument_of_isRead {stod : Text → Stod} {checkRoot : Bool} {node : JsonNode}
    (h : node.IsRead stod checkRoot) (allow : Bool) {json rest : Text}
    (hwritten : Written node.document.tokens json rest) (hrest : Blank rest) :
    IsDocument stod checkRoot allow json node :=
  isDocument_written (node.node_document h.readable) h.nesting (by simp [node.document_trails])
    h.root hwritten hrest

/-- The values that texts are read as are the readable ones, of at most `kStackLimit` levels. -/
theorem isRead_iff (stod : Text → Stod) (checkRoot allow : Bool) (node : JsonNode) :
    (∃ json reader, jsonToValue stod json checkRoot allow = .ok (node, reader)) ↔
      node.IsRead stod checkRoot := by
  constructor
  · rintro ⟨json, reader, h⟩
    exact isDocument_isRead (isDocument_of_ok h)
  · intro h
    have hwritten := written_spaced (node.document_lexemes h.readable)
    obtain ⟨reader, hread, -⟩ := ok_of_isDocument (isDocument_of_isRead h allow hwritten .nil)
    exact ⟨node.json, reader, hread⟩

/-- A value that was read is read again from every layout of its own document. -/
theorem jsonToValue_written {stod : Text → Stod} {checkRoot allow : Bool} {json : Text}
    {node : JsonNode} {reader : JsonReader}
    (h : jsonToValue stod json checkRoot allow = .ok (node, reader)) {json' rest : Text}
    (hwritten : Written node.document.tokens json' rest) (hrest : Blank rest) :
    ∃ reader', jsonToValue stod json' checkRoot false = .ok (node, reader') := by
  have hread := isDocument_isRead (isDocument_of_ok h)
  obtain ⟨reader', h', -⟩ := ok_of_isDocument (isDocument_of_isRead hread false hwritten hrest)
  exact ⟨reader', h'⟩

theorem written_list :
    ∃ reader, jsonToValue (fun _ => .refused) (JsonNode.list [.integer (-7)]).json true false =
      .ok (.list [.integer (-7)], reader) := by
  have hread : (JsonNode.list [.integer (-7)]).IsRead (fun _ => .refused) true :=
    ⟨⟨⟨by decide, by decide⟩, trivial⟩, by decide, fun _ => rfl⟩
  have hwritten := written_spaced (JsonNode.document_lexemes _ hread.readable)
  obtain ⟨reader, h, -⟩ := ok_of_isDocument (isDocument_of_isRead hread true hwritten .nil)
  exact jsonToValue_written h hwritten .nil

end Psych
