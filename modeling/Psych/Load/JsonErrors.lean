import Psych.Load.JsonDocuments

/-!
# How the reader fails

From every text the reader returns a value, or leaves an error with a place in the text, or is left
by the exception of a number that no `double` holds (`jsonToValue_settles`). Every part of it only
moves on in the text (`JsonReader.Leads`), which is what ends its loops.
-/

namespace Psych

/-! ## Outcomes -/

section Outcomes

variable {α β : Type}

/-- A condition for each outcome of a part of the reader, none of which is `endless`. -/
def Settles (value : α → Prop) (null : JsonReader → Prop) (range : Prop) :
    Except JsonFailure α → Prop
  | .ok a => value a
  | .error (.null reader) => null reader
  | .error .outOfRange => range
  | .error .endless => False

variable {value : α → Prop} {value' : β → Prop} {null : JsonReader → Prop} {range : Prop}

theorem Settles.mono {value₁ : α → Prop} {null₁ : JsonReader → Prop} {range₁ : Prop}
    {x : Except JsonFailure α} (h : Settles value null range x) (hvalue : ∀ a, value a → value₁ a)
    (hnull : ∀ reader, null reader → null₁ reader) (hrange : range → range₁) :
    Settles value₁ null₁ range₁ x := by
  rcases x with (_ | _ | _) | a
  · exact hnull _ h
  · exact hrange h
  · exact h
  · exact hvalue a h

theorem Settles.bind {x : Except JsonFailure α} {f : α → Except JsonFailure β}
    (h : Settles value null range x) (hf : ∀ a, value a → Settles value' null range (f a)) :
    Settles value' null range (x >>= f) := by
  rcases x with (_ | _ | _) | a
  · exact h
  · exact h
  · exact h
  · exact hf a h

end Outcomes

/-! ## Moving on -/

/-- The reader is in its text. -/
def JsonReader.Within (reader : JsonReader) : Prop := reader.jsonPos <:+ reader.startPos

/-- The line and the column are those of a place in the text. -/
def JsonReader.Located (reader : JsonReader) : Prop :=
  ∃ before after, reader.startPos = before ++ after ∧
    (reader.errorLine, reader.errorCol) = before.foldl nextPosition (1, 1)

/-- An error that `SetErrorCode` was called for. -/
structure JsonReader.Failed (reader : JsonReader) : Prop where
  code : reader.errorCode ≠ .noError
  encoding : reader.errorCode ≠ .unsupportedEncoding
  trailing : reader.errorCode = .trailingComma → reader.allowTrailingComma = false
  located : reader.Located

/-- The reader moves on in its text, and either sets no error or one that it leaves. -/
structure JsonReader.Leads (reader reader' : JsonReader) : Prop where
  startPos : reader'.startPos = reader.startPos
  allow : reader'.allowTrailingComma = reader.allowTrailingComma
  jsonPos : reader'.jsonPos <:+ reader.jsonPos
  error : (reader'.errorCode = reader.errorCode ∧ reader'.errorLine = reader.errorLine ∧
    reader'.errorCol = reader.errorCol) ∨ reader'.Failed

theorem JsonReader.Leads.refl (reader : JsonReader) : reader.Leads reader :=
  ⟨rfl, rfl, List.suffix_rfl, Or.inl ⟨rfl, rfl, rfl⟩⟩

theorem JsonReader.Failed.congr {reader reader' : JsonReader} (h : reader.Failed)
    (hstart : reader'.startPos = reader.startPos)
    (hallow : reader'.allowTrailingComma = reader.allowTrailingComma)
    (hcode : reader'.errorCode = reader.errorCode) (hline : reader'.errorLine = reader.errorLine)
    (hcol : reader'.errorCol = reader.errorCol) : reader'.Failed := by
  obtain ⟨before, after, hsplit, hposition⟩ := h.located
  refine ⟨hcode ▸ h.code, hcode ▸ h.encoding, fun htrailing => ?_, before, after, ?_, ?_⟩
  · exact hallow.trans (h.trailing (hcode ▸ htrailing))
  · rw [hstart, hsplit]
  · rw [hline, hcol, hposition]

theorem JsonReader.Leads.trans {reader reader' reader'' : JsonReader} (h : reader.Leads reader')
    (h' : reader'.Leads reader'') : reader.Leads reader'' where
  startPos := h'.startPos.trans h.startPos
  allow := h'.allow.trans h.allow
  jsonPos := h'.jsonPos.trans h.jsonPos
  error := by
    rcases h'.error with ⟨hcode, hline, hcol⟩ | hfailed
    · rcases h.error with ⟨hcode', hline', hcol'⟩ | hfailed
      · exact Or.inl ⟨hcode.trans hcode', hline.trans hline', hcol.trans hcol'⟩
      · exact Or.inr (hfailed.congr h'.startPos h'.allow hcode hline hcol)
    · exact Or.inr hfailed

theorem JsonReader.Leads.within {reader reader' : JsonReader} (h : reader.Leads reader')
    (hwithin : reader.Within) : reader'.Within := by
  unfold JsonReader.Within
  rw [h.startPos]
  exact h.jsonPos.trans hwithin

theorem leads_moveTo {reader : JsonReader} {s : Text} (h : s <:+ reader.jsonPos) :
    reader.Leads (reader.moveTo s) := ⟨rfl, rfl, h, Or.inl ⟨rfl, rfl, rfl⟩⟩

theorem leads_advance (reader : JsonReader) (token : JsonToken) :
    reader.Leads (reader.advance token) := leads_moveTo (List.drop_suffix _ _)

/-- `SetErrorCode` at a place in the text. -/
theorem failed_setErrorCode {reader : JsonReader} {error : JsonParseError} {pos : Text}
    (hpos : pos <:+ reader.startPos) (hcode : error ≠ .noError)
    (hencoding : error ≠ .unsupportedEncoding)
    (htrailing : error = .trailingComma → reader.allowTrailingComma = false) :
    (reader.setErrorCode error pos).Failed := by
  obtain ⟨before, hbefore⟩ := hpos
  refine ⟨hcode, hencoding, htrailing, before, pos, hbefore.symm, ?_⟩
  have htake : reader.startPos.take (reader.startPos.length - pos.length) = before := by
    rw [← hbefore, List.length_append, Nat.add_sub_cancel, List.take_left]
  simp only [JsonReader.setErrorCode, htake]

theorem leads_setErrorCode {reader : JsonReader} {error : JsonParseError} {pos : Text}
    (hwithin : reader.Within) (hpos : pos <:+ reader.jsonPos) (hcode : error ≠ .noError)
    (hencoding : error ≠ .unsupportedEncoding)
    (htrailing : error = .trailingComma → reader.allowTrailingComma = false) :
    reader.Leads (reader.setErrorCode error pos) where
  startPos := rfl
  allow := rfl
  jsonPos := List.suffix_rfl
  error := Or.inr (failed_setErrorCode (hpos.trans hwithin) hcode hencoding htrailing)

theorem leads_parseToken {reader : JsonReader} (hwithin : reader.Within) :
    reader.Leads reader.parseToken.2 := by
  have heat := eat_suffix reader.jsonPos
  have hmoved := leads_moveTo heat
  have hfound := tokenAt_found (eatWhitespaceAndComments reader.jsonPos)
  unfold JsonReader.parseToken
  simp only [JsonReader.moveTo]
  cases hat : tokenAt (eatWhitespaceAndComments reader.jsonPos) with
  | mk token error =>
    cases error with
    | none => exact hmoved
    | some pos =>
      rw [hat] at hfound
      cases hfound with
      | invalidEscape hpos =>
        exact hmoved.trans (leads_setErrorCode (hmoved.within hwithin) hpos (by decide) (by decide)
          (fun h => absurd h (by decide)))

/-! ## Parts of the reader -/

section Parts

variable {stod : Text → Stod} {α : Type}

/-- A number of the text from the position on that is out of range. -/
def OutOfRangeAfter (stod : Text → Stod) (s : Text) : Prop :=
  ∃ literal, literal <:+: s ∧ IsNumber literal ∧ stod literal = .outOfRange

theorem OutOfRangeAfter.mono {s s' : Text} (h : OutOfRangeAfter stod s) (hs : s <:+ s') :
    OutOfRangeAfter stod s' := by
  obtain ⟨literal, hliteral, hnumber, hrange⟩ := h
  exact ⟨literal, hliteral.trans hs.isInfix, hnumber, hrange⟩

/-- A value is read from at least one character. -/
def MovesOn (reader : JsonReader) (result : α × JsonReader) : Prop :=
  reader.Leads result.2 ∧ result.2.jsonPos.length < reader.jsonPos.length

/-- Every outcome leads on. -/
def SettlesFrom (stod : Text → Stod) (reader : JsonReader) (value : α → Prop) :
    Except JsonFailure α → Prop :=
  Settles value (fun reader' => reader.Leads reader') (OutOfRangeAfter stod reader.jsonPos)

theorem SettlesFrom.of_leads {reader reader' : JsonReader} {value value' : α → Prop}
    {x : Except JsonFailure α} (h : SettlesFrom stod reader' value x) (hleads : reader.Leads reader')
    (hvalue : ∀ a, value a → value' a) : SettlesFrom stod reader value' x :=
  h.mono hvalue (fun _ h' => hleads.trans h') fun h' => h'.mono hleads.jsonPos

/-- What settles a member: from a token the reader is at, it takes a character. -/
def MemberSettles (stod : Text → Stod)
    (buildMember : JsonToken → JsonReader → Except JsonFailure (α × JsonReader)) : Prop :=
  ∀ token reader, reader.Within → AtToken token reader →
    SettlesFrom stod reader (MovesOn reader) (buildMember token reader)

variable {buildMember : JsonToken → JsonReader → Except JsonFailure (α × JsonReader)}

theorem buildMembers_settles (hmember : MemberSettles stod buildMember) {close : JsonTokenType}
    {turns : Nat} {token : JsonToken} {reader : JsonReader} (hwithin : reader.Within)
    (hat : AtToken token reader) (hturns : reader.jsonPos.length < turns) :
    SettlesFrom stod reader (fun result => reader.Leads result.2.2)
      (buildMembers buildMember close turns token reader) := by
  induction turns generalizing token reader with
  | zero => omega
  | succ turns ih =>
    unfold buildMembers
    split
    · exact JsonReader.Leads.refl reader
    · refine Settles.bind (hmember token reader hwithin hat) fun result hresult => ?_
      obtain ⟨member, reader₁⟩ := result
      have hleads : reader.Leads reader₁ := hresult.1
      have hless : reader₁.jsonPos.length < reader.jsonPos.length := hresult.2
      have hparse := leads_parseToken (hleads.within hwithin)
      cases hnext : reader₁.parseToken with
      | mk token₁ reader₂ =>
        rw [hnext] at hparse
        have hleads₂ : reader.Leads reader₂ := hleads.trans hparse
        simp only [hnext]
        split
        · have hadvance := leads_advance reader₂ token₁
          have hleads₃ := hleads₂.trans hadvance
          have hparse' := leads_parseToken (hleads₃.within hwithin)
          cases hafter : (reader₂.advance token₁).parseToken with
          | mk token₂ reader₃ =>
            rw [hafter] at hparse'
            have hleads₄ : reader.Leads reader₃ := hleads₃.trans hparse'
            simp only
            split
            · split
              · exact hleads₄
              · rename_i hallow
                exact hleads₄.trans (leads_setErrorCode (hleads₄.within hwithin) List.suffix_rfl
                  (by decide) (by decide) fun _ => by simpa using hallow)
            · have hlength : reader₃.jsonPos.length ≤ reader₁.jsonPos.length :=
                (hparse.trans (hadvance.trans hparse')).jsonPos.length_le
              have hmore := ih (hleads₄.within hwithin) (parseToken_atToken hafter).1 (by omega)
              refine (hmore.of_leads hleads₄ fun _ h => h).bind fun result hresult => ?_
              exact hleads₄.trans hresult
        · split
          · rename_i hclose
            rw [buildMembers_close reader₂ hclose]
            exact hleads₂
          · exact hleads₂

theorem buildContainer_settles (hmember : MemberSettles stod buildMember) (close : JsonTokenType)
    (value : List α → JsonNode) {reader : JsonReader} (hwithin : reader.Within) :
    SettlesFrom stod reader (fun result => reader.Leads result.2)
      (buildContainer buildMember close value reader) := by
  have hparse := leads_parseToken hwithin
  unfold buildContainer
  cases hfirst : reader.parseToken with
  | mk token reader₁ =>
    rw [hfirst] at hparse
    have hmembers : SettlesFrom stod reader₁ (fun result => reader₁.Leads result.2.2)
        (buildMembers buildMember close (reader₁.jsonPos.length + 1) token reader₁) :=
      buildMembers_settles hmember (hparse.within hwithin) (parseToken_atToken hfirst).1
        (Nat.lt_succ_self _)
    simp only
    refine (hmembers.of_leads hparse fun _ h => h).bind fun result hresult => ?_
    exact (hparse.trans hresult).trans (leads_advance _ _)

/-- What settles a value. -/
def ValueSettles (stod : Text → Stod)
    (buildValue : JsonReader → Except JsonFailure (α × JsonReader)) : Prop :=
  ∀ reader, reader.Within → SettlesFrom stod reader (MovesOn reader) (buildValue reader)

theorem memberSettles_pair {buildValue : JsonReader → Except JsonFailure (α × JsonReader)}
    (hvalue : ValueSettles stod buildValue) : MemberSettles stod (buildPair buildValue) := by
  intro token reader hwithin hat
  unfold buildPair
  split
  · exact leads_setErrorCode hwithin List.suffix_rfl (by decide) (by decide) (fun h => nomatch h)
  · cases hkey : decodeString token with
    | none => exact JsonReader.Leads.refl reader
    | some key =>
      have hadvance := leads_advance reader token
      have hparse := leads_parseToken (hadvance.within hwithin)
      cases hcolon : (reader.advance token).parseToken with
      | mk colon reader₁ =>
        rw [hcolon] at hparse
        have hleads₁ : reader.Leads reader₁ := hadvance.trans hparse
        simp only
        split
        · exact hleads₁
        · have hadvance' := leads_advance reader₁ colon
          have hleads₂ := hleads₁.trans hadvance'
          have hparse' := leads_parseToken (hleads₂.within hwithin)
          have hleads₃ := hleads₂.trans hparse'
          have hbuild := hvalue _ (hleads₃.within hwithin)
          refine (hbuild.of_leads hleads₃ fun _ h => h).bind fun result hresult => ?_
          refine ⟨hleads₃.trans hresult.1, ?_⟩
          exact Nat.lt_of_lt_of_le hresult.2 hleads₃.jsonPos.length_le

theorem decodeNumber_settles {token : JsonToken} {reader : JsonReader} (hnumber : IsNumber token.text)
    (htoken : token.text <:+: reader.jsonPos) :
    SettlesFrom stod reader (fun _ => True) (decodeNumber stod token reader) := by
  unfold decodeNumber
  cases stringToInt token.text with
  | some n => trivial
  | none =>
    simp only
    cases hstod : stod token.text with
    | finite => trivial
    | refused => exact JsonReader.Leads.refl reader
    | outOfRange => exact ⟨token.text, htoken, hnumber, hstod⟩

/-- A number is read from a part of the text that is one. -/
theorem number_literal {reader reader' : JsonReader} {token : JsonToken}
    (h : reader.parseToken = (token, reader')) (htype : token.type = .number) :
    IsNumber token.text ∧ token.text <:+: reader'.jsonPos := by
  obtain ⟨hreader, hat, hlexeme⟩ := parseToken_valid h (by simp [htype]) (by simp [htype])
  have hfound := tokenAt_found (eatWhitespaceAndComments reader.jsonPos)
  rw [hat] at hfound
  refine ⟨?_, ?_⟩
  · obtain ⟨type, text⟩ := token
    cases htype
    exact hlexeme
  · rw [hreader]
    cases hfound with
    | @lexeme _ rest _ hs => exact ⟨[], rest, hs.symm⟩
    | endOfInput => cases htype
    | invalid => cases htype

theorem buildValue_settles (stod : Text → Stod) (levels : Nat) (isRoot : Bool) :
    ValueSettles stod (buildValue stod levels isRoot) := by
  induction levels generalizing isRoot with
  | zero =>
    intro reader hwithin
    exact leads_setErrorCode hwithin List.suffix_rfl (by decide) (by decide) (fun h => nomatch h)
  | succ levels ih =>
    intro reader hwithin
    have hparse := leads_parseToken hwithin
    unfold buildValue
    cases hfirst : reader.parseToken with
    | mk token reader₁ =>
      rw [hfirst] at hparse
      have hwithin₁ := hparse.within hwithin
      -- A token that is there is passed.
      have hpass : token.type ≠ .invalidToken → token.type ≠ .endOfInput →
          ∀ node : JsonNode, MovesOn reader (node, reader₁.advance token) := by
        intro hvalid hend node
        obtain ⟨s, hlexed, hadvance⟩ := lexed_parseToken hfirst hvalid hend
        have hlength := lexed_length hlexed
        refine ⟨hparse.trans (leads_advance reader₁ token), ?_⟩
        rw [hadvance]
        simp only [List.length_singleton] at hlength
        exact Nat.lt_of_lt_of_le (by simp only [JsonReader.moveTo]; omega) hlength
      have hadvance₁ : reader.Leads (reader₁.advance token) :=
        hparse.trans (leads_advance reader₁ token)
      have hcontainer : token.type ≠ .invalidToken → token.type ≠ .endOfInput →
          ∀ {x : Except JsonFailure (JsonNode × JsonReader)},
          SettlesFrom stod (reader₁.advance token)
            (fun result => (reader₁.advance token).Leads result.2) x →
          SettlesFrom stod reader (MovesOn reader) x := by
        intro hvalid hend x hx
        refine hx.of_leads hadvance₁ fun result hresult => ⟨hadvance₁.trans hresult, ?_⟩
        exact Nat.lt_of_le_of_lt hresult.jsonPos.length_le (hpass hvalid hend result.1).2
      simp only
      split
      · exact hparse.trans (leads_setErrorCode hwithin₁ List.suffix_rfl (by decide) (by decide)
          (fun h => nomatch h))
      · split
        · rename_i htype
          exact hpass (by simp [htype]) (by simp [htype]) _
        · rename_i htype
          exact hpass (by simp [htype]) (by simp [htype]) _
        · rename_i htype
          exact hpass (by simp [htype]) (by simp [htype]) _
        · rename_i htype
          obtain ⟨hnumber, hliteral⟩ := number_literal hfirst htype
          have hdecode : SettlesFrom stod reader₁ (fun _ => True)
              (decodeNumber stod token reader₁) := decodeNumber_settles hnumber hliteral
          refine (hdecode.of_leads hparse fun _ h => h).bind fun node _ => ?_
          exact hpass (by simp [htype]) (by simp [htype]) node
        · rename_i htype
          split
          · exact hparse
          · exact hpass (by simp [htype]) (by simp [htype]) _
        · rename_i htype
          exact hcontainer (by simp [htype]) (by simp [htype])
            (buildContainer_settles (fun _ reader hwithin _ => ih false reader hwithin) _ _
              (hadvance₁.within hwithin))
        · rename_i htype
          exact hcontainer (by simp [htype]) (by simp [htype])
            (buildContainer_settles (memberSettles_pair (ih false)) _ _
              (hadvance₁.within hwithin))
        · exact hparse

end Parts

/-! ## Documents -/

theorem start_within (json : Text) (allow : Bool) : (JsonReader.start json allow).Within :=
  List.suffix_rfl

theorem withErrorCode_failed {json : Text} {allow : Bool} {reader : JsonReader}
    (h : (JsonReader.start json allow).Leads reader) : reader.withErrorCode.Failed := by
  unfold JsonReader.withErrorCode
  split
  · exact failed_setErrorCode (h.within (start_within json allow)) (by decide) (by decide)
      (fun h => nomatch h)
  · rename_i hcode
    rcases h.error with ⟨hnone, -, -⟩ | hfailed
    · exact absurd hnone hcode
    · exact hfailed

theorem withErrorCode_startPos {json : Text} {allow : Bool} {reader : JsonReader}
    (h : (JsonReader.start json allow).Leads reader) :
    reader.withErrorCode.startPos = withoutByteOrderMark json := by
  unfold JsonReader.withErrorCode
  split
  · exact h.startPos
  · exact h.startPos

/-- What reading a text may come to: a value, with no error set; an error, which is at a place in the
text; or the exception of a number that is out of range. -/
theorem jsonToValue_settles (stod : Text → Stod) (json : Text) (checkRoot allow : Bool) :
    Settles (fun result => result.2.errorCode = .noError)
      (fun reader => reader.startPos = withoutByteOrderMark json ∧ reader.Failed)
      (OutOfRangeAfter stod (withoutByteOrderMark json))
      (jsonToValue stod json checkRoot allow) := by
  have hbuild := buildValue_settles stod kStackLimit checkRoot _ (start_within json allow)
  unfold jsonToValue
  cases hvalue : buildValue stod kStackLimit checkRoot (.start json allow) with
  | error failure =>
    rw [hvalue] at hbuild
    rcases failure with reader | _ | _
    · exact ⟨withErrorCode_startPos hbuild, withErrorCode_failed hbuild⟩
    · exact hbuild
    · exact hbuild
  | ok result =>
    obtain ⟨root, reader⟩ := result
    obtain ⟨tree, s, -, -, -, -, -, rfl⟩ := buildValue_sound kStackLimit checkRoot hvalue
    rw [hvalue] at hbuild
    have hleads := hbuild.1
    have hparse := leads_parseToken (hleads.within (start_within json allow))
    cases hnext : ((JsonReader.start json allow).moveTo s).parseToken with
    | mk token reader' =>
      rw [hnext] at hparse
      have hleads' : (JsonReader.start json allow).Leads reader' := hleads.trans hparse
      simp only [hnext]
      split
      · rename_i hend
        obtain ⟨hat, hpos⟩ := parseToken_atToken hnext
        rw [← hat.token_eq, hpos] at hend
        have hreader := (parseToken_endOfInput _ (tokenAt_endOfInput.mp hend)).2
        rw [hnext] at hreader
        exact congrArg JsonReader.errorCode hreader
      · have herror : (JsonReader.start json allow).Leads
            (reader'.setErrorCode .unexpectedDataAfterRoot reader'.jsonPos) :=
          hleads'.trans (leads_setErrorCode (hleads'.within (start_within json allow))
            List.suffix_rfl (by decide) (by decide) (fun h => nomatch h))
        exact ⟨withErrorCode_startPos herror, withErrorCode_failed herror⟩

end Psych
