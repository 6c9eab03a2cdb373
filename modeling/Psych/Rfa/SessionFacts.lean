import Psych.Rfa.Session

/-!
# What one event does to a session

An event changes the login state of a session only through a login response
(`processEvent_other`), and a login response only as `onLoginResponse_spec` says: it is
recorded, a directory may be submitted after it, and the session is muted, unmuted or
left as it was.
-/

namespace Psych

/-- Two sessions that agree on everything but mute and counters. -/
structure SameRecord (s s' : Session) : Prop where
  instanceId : s'.instanceId = s.instanceId
  ommProvider : s'.ommProvider = s.ommProvider
  streamState : s'.streamState = s.streamState
  dataState : s'.dataState = s.dataState
  history : s'.history = s.history

/-- Two sessions that agree on everything but counters. -/
structure SameLogin (s s' : Session) : Prop extends SameRecord s s' where
  isMuted : s'.isMuted = s.isMuted

theorem SameRecord.trans {s t u : Session} (h : SameRecord s t) (h' : SameRecord t u) :
    SameRecord s u :=
  ⟨h'.1.trans h.1, h'.2.trans h.2, h'.3.trans h.3, h'.4.trans h.4, h'.5.trans h.5⟩

theorem SameLogin.refl (s : Session) : SameLogin s s := ⟨⟨rfl, rfl, rfl, rfl, rfl⟩, rfl⟩

theorem SameLogin.trans {s t u : Session} (h : SameLogin s t) (h' : SameLogin t u) :
    SameLogin s u :=
  ⟨h.toSameRecord.trans h'.toSameRecord, h'.isMuted.trans h.isMuted⟩

theorem sameLogin_bump (s : Session) (counter : SessionCounter) : SameLogin s (s.bump counter) :=
  ⟨⟨rfl, rfl, rfl, rfl, rfl⟩, rfl⟩

/-! ## The directory -/

/-- Every call on the way to a submitted directory succeeds. -/
def LoginCalls.directorySent (calls : LoginCalls) (s : Session) : Bool :=
  calls.encodeDirectory && calls.validateMsg != .throws && s.ommProvider &&
  calls.directoryToken && calls.submit

/-- `validateMsg` throws, which `SendDirectoryResponse` reports by returning false. -/
def LoginCalls.validationThrows (calls : LoginCalls) : Bool :=
  calls.encodeDirectory && calls.validateMsg == .throws

/-- `SendDirectoryResponse` returns where the directory was sent or not validated, and
throws elsewhere; it records the directory where it was sent. -/
theorem sendDirectoryResponse_spec (calls : LoginCalls) (s : Session) :
    (∃ s', SameLogin s s' ∧ calls.directorySent s = true ∧ calls.validationThrows = false ∧
      s.sendDirectoryResponse calls = (.ok true, s'.record .directory)) ∨
    (∃ s', SameLogin s s' ∧ calls.directorySent s = false ∧ calls.validationThrows = true ∧
      s.sendDirectoryResponse calls = (.ok false, s')) ∨
    (∃ s' e, SameLogin s s' ∧ calls.directorySent s = false ∧ calls.validationThrows = false ∧
      s.sendDirectoryResponse calls = (.error e, s')) := by
  unfold Session.sendDirectoryResponse LoginCalls.directorySent LoginCalls.validationThrows
  cases hencode : calls.encodeDirectory with
  | false => exact Or.inr (Or.inr ⟨s, _, .refl s, by simp, by simp, rfl⟩)
  | true =>
    by_cases hvalid : calls.validateMsg = .throws
    · exact Or.inr (Or.inl ⟨_, sameLogin_bump s .mmtDirectoryMalformed, by simp [hvalid],
        by simp [hvalid], by simp [hvalid]⟩)
    · have hvalidated := sameLogin_bump s .mmtDirectoryValidated
      cases homm : s.ommProvider with
      | false =>
        exact Or.inr (Or.inr ⟨_, .undefined, hvalidated, by simp, by simp [hvalid],
          by simp [hvalid, Session.bump, homm]⟩)
      | true =>
        cases htoken : calls.directoryToken with
        | false =>
          exact Or.inr (Or.inr ⟨_, .invalidUsage, hvalidated, by simp, by simp [hvalid],
            by simp [hvalid, Session.bump, homm]⟩)
        | true =>
          cases hsubmit : calls.submit with
          | false =>
            exact Or.inr (Or.inr ⟨_, .invalidUsage, hvalidated, by simp, by simp [hvalid],
              by simp [hvalid, Session.submit, Session.bump, homm]⟩)
          | true =>
            refine Or.inl ⟨((s.bump .mmtDirectoryValidated).bump .rfaMsgsSent).bump
              .mmtDirectorySent, (hvalidated.trans (sameLogin_bump _ _)).trans
              (sameLogin_bump _ _), by simp [hvalid], by simp [hvalid], ?_⟩
            simp [hvalid, Session.submit, Session.bump, Session.record, homm]

/-! ## The tokens -/

/-- A token is generated for the entry, and the session has a place for it; an entry whose
stream is gone needs none. -/
def tokenGenerated (calls : LoginCalls) (instanceId : Nat) (streams : Streams)
    (entry : (Text × Nat) × Nat) : Prop :=
  ∀ stream, streams.stream[entry.1.2]? = some stream → stream.live = true →
    (calls.itemToken entry.2).isSome = true ∧ instanceId < stream.token.length

/-- `ResetTokens` generates every token it needs. -/
def tokensReset (calls : LoginCalls) (s : Session) (streams : Streams) : Prop :=
  s.ommProvider = false ∨
    ∀ entry ∈ streams.directory.zipIdx, tokenGenerated calls s.instanceId streams entry

/-- What an event leaves of a stream: everything but the values of its tokens. -/
def ItemStream.shape (stream : ItemStream) : Text × Bool × Nat :=
  (stream.rfaName, stream.live, stream.token.length)

/-- Streams that differ only in the values of tokens. -/
structure SameStreams (streams streams' : Streams) : Prop where
  directory : streams'.directory = streams.directory
  shape : streams'.stream.map ItemStream.shape = streams.stream.map ItemStream.shape

theorem SameStreams.refl (streams : Streams) : SameStreams streams streams := ⟨rfl, rfl⟩

theorem SameStreams.trans {s t u : Streams} (h : SameStreams s t) (h' : SameStreams t u) :
    SameStreams s u :=
  ⟨h'.directory.trans h.directory, h'.shape.trans h.shape⟩

theorem sameStreams_setToken (streams : Streams) (i instanceId : Nat) (token : Token) :
    SameStreams streams (streams.setToken i instanceId token) := by
  refine ⟨rfl, List.ext_getElem? fun j => ?_⟩
  simp only [Streams.setToken, List.getElem?_map, List.getElem?_modify]
  cases streams.stream[j]? with
  | none => rfl
  | some s =>
    by_cases h : i = j
    · simp [h, ItemStream.shape]
    · simp [h]

theorem SameStreams.getElem? {streams streams' : Streams} (h : SameStreams streams streams')
    (i : Nat) :
    (streams'.stream[i]?).map ItemStream.shape = (streams.stream[i]?).map ItemStream.shape := by
  have := congrArg (·[i]?) h.shape
  simpa only [List.getElem?_map] using this

theorem SameStreams.mem {streams streams' : Streams} (h : SameStreams streams streams')
    {stream : ItemStream} (hstream : stream ∈ streams'.stream) :
    ∃ before ∈ streams.stream, before.shape = stream.shape := by
  have hmem : stream.shape ∈ streams.stream.map ItemStream.shape := by
    rw [← h.shape]
    exact List.mem_map_of_mem hstream
  exact List.mem_map.mp hmem

theorem tokenGenerated_congr {calls : LoginCalls} {instanceId : Nat} {streams streams' : Streams}
    (h : SameStreams streams streams') (entry : (Text × Nat) × Nat) :
    tokenGenerated calls instanceId streams' entry ↔
      tokenGenerated calls instanceId streams entry := by
  have hi := h.getElem? entry.1.2
  unfold tokenGenerated
  cases hs : streams.stream[entry.1.2]? with
  | none =>
    rw [hs, Option.map_none, Option.map_eq_none_iff] at hi
    simp [hi]
  | some stream =>
    rw [hs, Option.map_some, Option.map_eq_some_iff] at hi
    obtain ⟨stream', hs', heq⟩ := hi
    simp only [ItemStream.shape, Prod.mk.injEq] at heq
    simp [hs', heq.2.1, heq.2.2]

theorem resetToken_ok_iff (calls : LoginCalls) (entry : (Text × Nat) × Nat)
    (s : Session × Streams) :
    (resetToken calls entry s).1 = .ok () ↔ tokenGenerated calls s.1.instanceId s.2 entry := by
  unfold resetToken tokenGenerated
  cases hstream : s.2.stream[entry.1.2]? with
  | none => simp
  | some stream =>
    cases hlive : stream.live with
    | false => simp [hlive]
    | true =>
      cases htoken : calls.itemToken entry.2 with
      | none => simp [hlive]
      | some token =>
        by_cases hlen : stream.token.length ≤ s.1.instanceId
        · simp [hlive, hlen]
        · simp [hlive, hlen, Nat.lt_of_not_le hlen]

theorem resetToken_state (calls : LoginCalls) (entry : (Text × Nat) × Nat)
    (s : Session × Streams) :
    SameLogin s.1 (resetToken calls entry s).2.1 ∧
      SameStreams s.2 (resetToken calls entry s).2.2 := by
  unfold resetToken
  split
  · exact ⟨.refl _, .refl _⟩
  · split
    · exact ⟨.refl _, .refl _⟩
    · split
      · exact ⟨.refl _, .refl _⟩
      · split
        · exact ⟨.refl _, .refl _⟩
        · exact ⟨sameLogin_bump _ _, sameStreams_setToken _ _ _ _⟩

theorem resetTokens_spec (calls : LoginCalls) (s : Session × Streams) :
    ((resetTokens calls s).1 = .ok () ↔ tokensReset calls s.1 s.2) ∧
      SameLogin s.1 (resetTokens calls s).2.1 := by
  unfold resetTokens tokensReset
  cases homm : s.1.ommProvider with
  | false => simp [SameLogin.refl]
  | true =>
    simp only [Bool.not_true, Bool.false_eq_true, if_false, Bool.true_eq_false, false_or]
    let I : Session × Streams → Prop := fun t => SameLogin s.1 t.1 ∧ SameStreams s.2 t.2
    have hI : I s := ⟨.refl _, .refl _⟩
    have hkeep : ∀ entry t, I t → I (resetToken calls entry t).2 := fun entry t ht =>
      ⟨ht.1.trans (resetToken_state calls entry t).1,
        ht.2.trans (resetToken_state calls entry t).2⟩
    refine ⟨Faults.forEach_ok_iff I (fun entry _ t ht => ⟨?_, hkeep entry t ht⟩) hI,
      (Faults.forEach_invariant I (fun entry _ t ht => hkeep entry t ht) hI).1⟩
    rw [resetToken_ok_iff, tokenGenerated_congr ht.2, ht.1.instanceId]

/-! ## Login responses -/

/-- The whole of `OnLoginSuccess` runs through. -/
def unmutes (calls : LoginCalls) (s : Session) (streams : Streams) : Prop :=
  (calls.directorySent s = true ∨ calls.validationThrows = true) ∧ tokensReset calls s streams

theorem unmute_spec (calls : LoginCalls) (s : Session × Streams) :
    SameRecord s.1 (unmute calls s).2.1 ∧
      ((tokensReset calls s.1 s.2 ∧ (unmute calls s).2.1.isMuted = false) ∨
        (¬ tokensReset calls s.1 s.2 ∧ (unmute calls s).2.1.isMuted = s.1.isMuted)) := by
  obtain ⟨hiff, hsame⟩ := resetTokens_spec calls s
  unfold unmute
  cases hr : resetTokens calls s with
  | mk r t =>
    rw [hr] at hiff hsame
    cases r with
    | ok _ =>
      exact ⟨⟨hsame.1.1, hsame.1.2, hsame.1.3, hsame.1.4, hsame.1.5⟩,
        Or.inl ⟨hiff.mp rfl, rfl⟩⟩
    | error e =>
      have hno : ¬ tokensReset calls s.1 s.2 := fun h => by cases hiff.mpr h
      cases e <;> exact ⟨hsame.toSameRecord, Or.inr ⟨hno, hsame.isMuted⟩⟩

theorem tokensReset_congr {calls : LoginCalls} {s t : Session} (h : SameRecord s t)
    (streams : Streams) : tokensReset calls t streams ↔ tokensReset calls s streams := by
  unfold tokensReset
  rw [h.ommProvider, h.instanceId]

/-- A login success submits the directory or does not, and then unmutes the session or
leaves its mute as it was. -/
theorem onLoginSuccess_spec (calls : LoginCalls) (s : Session × Streams) :
    ∃ t, SameLogin s.1 t ∧
      SameRecord (if calls.directorySent s.1 = true then t.record .directory else t)
        (onLoginSuccess calls s).2.1 ∧
      ((unmutes calls s.1 s.2 ∧ (onLoginSuccess calls s).2.1.isMuted = false) ∨
        (¬ unmutes calls s.1 s.2 ∧ (onLoginSuccess calls s).2.1.isMuted = s.1.isMuted)) := by
  have hbump := sameLogin_bump s.1 .mmtLoginSuccessReceived
  have hsent : calls.directorySent (s.1.bump .mmtLoginSuccessReceived) = calls.directorySent s.1 :=
    rfl
  have hspec := sendDirectoryResponse_spec calls (s.1.bump .mmtLoginSuccessReceived)
  rw [hsent] at hspec
  unfold onLoginSuccess unmutes
  rcases hspec with ⟨t, ht, hd, hv, heq⟩ | ⟨t, ht, hd, hv, heq⟩ | ⟨t, e, ht, hd, hv, heq⟩
  · have hsame := hbump.trans ht
    obtain ⟨hrec, hmute⟩ := unmute_spec calls (t.record .directory, s.2)
    have hiff : tokensReset calls (t.record .directory) s.2 ↔ tokensReset calls s.1 s.2 :=
      tokensReset_congr hsame.toSameRecord s.2
    simp only [heq, hd, if_true]
    refine ⟨t, hsame, hrec, ?_⟩
    rcases hmute with ⟨hok, hm⟩ | ⟨hno, hm⟩
    · exact Or.inl ⟨⟨Or.inl trivial, hiff.mp hok⟩, hm⟩
    · exact Or.inr ⟨fun h => hno (hiff.mpr h.2), hm.trans hsame.isMuted⟩
  · have hsame := hbump.trans ht
    obtain ⟨hrec, hmute⟩ := unmute_spec calls (t, s.2)
    have hiff : tokensReset calls t s.2 ↔ tokensReset calls s.1 s.2 :=
      tokensReset_congr hsame.toSameRecord s.2
    simp only [heq, hd, Bool.false_eq_true, if_false]
    refine ⟨t, hsame, hrec, ?_⟩
    rcases hmute with ⟨hok, hm⟩ | ⟨hno, hm⟩
    · exact Or.inl ⟨⟨Or.inr hv, hiff.mp hok⟩, hm⟩
    · exact Or.inr ⟨fun h => hno (hiff.mpr h.2), hm.trans hsame.isMuted⟩
  · have hsame := hbump.trans ht
    simp only [heq, hd, hv, Bool.false_eq_true, if_false]
    refine ⟨t, hsame, ?_⟩
    cases e <;> exact ⟨(SameLogin.refl t).toSameRecord, Or.inr ⟨by simp, hsame.isMuted⟩⟩

/-! ## What no event does -/

theorem resetTokens_streams (calls : LoginCalls) (s : Session × Streams) :
    SameStreams s.2 (resetTokens calls s).2.2 := by
  unfold resetTokens
  split
  · exact .refl _
  · exact Faults.forEach_rel (fun s t : Session × Streams => SameStreams s.2 t.2)
      (fun s => .refl s.2) (fun s t u h h' => SameStreams.trans h h')
      (fun entry t => (resetToken_state calls entry t).2) _ s

/-- No event moves a session, takes its provider or its history, or changes the streams
otherwise than by setting tokens. -/
structure EventFrame (s t : Session × Streams) : Prop where
  instanceId : t.1.instanceId = s.1.instanceId
  ommProvider : t.1.ommProvider = s.1.ommProvider
  history : s.1.history <:+ t.1.history
  streams : SameStreams s.2 t.2

theorem EventFrame.trans {s t u : Session × Streams} (h : EventFrame s t) (h' : EventFrame t u) :
    EventFrame s u :=
  ⟨h'.instanceId.trans h.instanceId, h'.ommProvider.trans h.ommProvider,
    h.history.trans h'.history, h.streams.trans h'.streams⟩

theorem eventFrame_bump (s : Session) (streams : Streams) (counter : SessionCounter) :
    EventFrame (s, streams) (s.bump counter, streams) :=
  ⟨rfl, rfl, List.suffix_refl _, .refl _⟩

theorem onLoginSuccess_frame (calls : LoginCalls) (s : Session × Streams) :
    EventFrame s (onLoginSuccess calls s).2 := by
  obtain ⟨t, ht, hrec, _⟩ := onLoginSuccess_spec calls s
  refine ⟨?_, ?_, ?_, ?_⟩
  · rw [hrec.instanceId]
    split <;> exact ht.instanceId
  · rw [hrec.ommProvider]
    split <;> exact ht.ommProvider
  · rw [hrec.history, ← ht.history]
    split
    · exact List.suffix_cons _ _
    · exact List.suffix_refl _
  · unfold onLoginSuccess unmute
    split
    · exact .refl _
    · exact .refl _
    · rename_i session _
      have hreset := resetTokens_streams calls (session, s.2)
      split <;> (rename_i heq; rw [heq] at hreset; exact hreset)

theorem onLoginResponse_frame (streamState : StreamState) (dataState : DataState)
    (calls : LoginCalls) (s : Session × Streams) :
    EventFrame s (onLoginResponse streamState dataState calls s).2 := by
  have hrecorded : EventFrame s
      ((s.1.bump .mmtLoginResponseReceived).recordLogin streamState dataState, s.2) :=
    ⟨rfl, rfl, List.suffix_cons _ _, .refl _⟩
  apply hrecorded.trans
  unfold onLoginResponse
  split
  · split
    · exact onLoginSuccess_frame calls _
    · exact ⟨rfl, rfl, List.suffix_refl _, .refl _⟩
    · exact eventFrame_bump _ _ _
  · exact ⟨rfl, rfl, List.suffix_refl _, .refl _⟩
  all_goals exact eventFrame_bump _ _ _

theorem processEvent_frame (event : RfaEvent) (s : Session × Streams) :
    EventFrame s (processEvent event s).2 := by
  apply (eventFrame_bump s.1 s.2 .rfaEventsReceived).trans
  unfold processEvent
  cases event with
  | loginResponse streamState dataState calls =>
    exact ((eventFrame_bump _ _ _).trans (eventFrame_bump _ _ _)).trans
      (onLoginResponse_frame streamState dataState calls _)
  | otherResponse =>
    exact ((eventFrame_bump _ _ _).trans (eventFrame_bump _ _ _)).trans (eventFrame_bump _ _ _)
  | otherItemEvent => exact (eventFrame_bump _ _ _).trans (eventFrame_bump _ _ _)
  | ommCmdError | otherEvent => exact eventFrame_bump _ _ _

/-- The session has its provider and a place in the token vector of every stream. -/
def placed (s : Session × Streams) : Prop :=
  s.1.ommProvider = true ∧ ∀ stream ∈ s.2.stream, s.1.instanceId < stream.token.length

theorem placed_of_same {s t : Session × Streams} (hid : t.1.instanceId = s.1.instanceId)
    (homm : t.1.ommProvider = s.1.ommProvider) (hstreams : SameStreams s.2 t.2) (hs : placed s) :
    placed t := by
  refine ⟨homm.trans hs.1, fun stream hstream => ?_⟩
  obtain ⟨before, hbefore, heq⟩ := hstreams.mem hstream
  simp only [ItemStream.shape, Prod.mk.injEq] at heq
  rw [hid, ← heq.2.2]
  exact hs.2 before hbefore

theorem resetToken_error {calls : LoginCalls} {entry : (Text × Nat) × Nat} {s : Session × Streams}
    (hs : placed s) : ∀ e, (resetToken calls entry s).1 = .error e → e = .invalidUsage := by
  unfold resetToken
  intro e he
  split at he
  · cases he
  · rename_i stream hstream
    have hlen := hs.2 stream (List.mem_of_getElem? hstream)
    split at he
    · cases he
    · split at he
      · cases he
        rfl
      · rw [if_neg (Nat.not_le.mpr hlen)] at he
        cases he

theorem resetTokens_error (calls : LoginCalls) {s : Session × Streams} (hs : placed s) :
    ∀ e, (resetTokens calls s).1 = .error e → e = .invalidUsage := by
  unfold resetTokens
  split
  · intro e he
    cases he
  · refine Faults.forEach_error placed (fun entry _ t ht => ⟨resetToken_error ht, ?_⟩) hs
    obtain ⟨hlogin, hstreams⟩ := resetToken_state calls entry t
    exact placed_of_same hlogin.instanceId hlogin.ommProvider hstreams ht

theorem sendDirectoryResponse_error (calls : LoginCalls) {s : Session}
    (homm : s.ommProvider = true) :
    ∀ e, (s.sendDirectoryResponse calls).1 = .error e → e = .invalidUsage := by
  unfold Session.sendDirectoryResponse Session.submit
  intro e he
  cases hencode : calls.encodeDirectory with
  | false => simpa [hencode] using he.symm
  | true =>
    by_cases hvalid : calls.validateMsg = .throws
    · simp [hencode, hvalid] at he
    · cases htoken : calls.directoryToken with
      | false => simpa [hencode, hvalid, htoken, Session.bump, homm] using he.symm
      | true =>
        cases hsubmit : calls.submit with
        | false => simpa [hencode, hvalid, htoken, hsubmit, Session.bump, homm] using he.symm
        | true => simp [hencode, hvalid, htoken, hsubmit, Session.bump, homm] at he

/-- `OnLoginSuccess` catches what it meets. -/
theorem onLoginSuccess_ok {calls : LoginCalls} {s : Session × Streams} (hs : placed s) :
    (onLoginSuccess calls s).1 = .ok () := by
  have hdirectory := sendDirectoryResponse_error calls
    (s := s.1.bump .mmtLoginSuccessReceived) hs.1
  have hspec := sendDirectoryResponse_spec calls (s.1.bump .mmtLoginSuccessReceived)
  have hunmute : ∀ t : Session, t.instanceId = s.1.instanceId → t.ommProvider = s.1.ommProvider →
      (unmute calls (t, s.2)).1 = .ok () := by
    intro t hid homm
    have hplaced : placed (t, s.2) := placed_of_same hid homm (.refl s.2) hs
    have herror := resetTokens_error calls hplaced
    unfold unmute
    cases hr : resetTokens calls (t, s.2) with
    | mk r u =>
      rw [hr] at herror
      cases r with
      | ok _ => rfl
      | error e => rw [herror e rfl]
  unfold onLoginSuccess
  rcases hspec with ⟨t, ht, _, _, heq⟩ | ⟨t, ht, _, _, heq⟩ | ⟨t, e, ht, _, _, heq⟩
  · rw [heq]
    exact hunmute _ ht.instanceId ht.ommProvider
  · rw [heq]
    exact hunmute t ht.instanceId ht.ommProvider
  · rw [heq] at hdirectory ⊢
    rw [hdirectory e rfl]

theorem onLoginResponse_ok (streamState : StreamState) (dataState : DataState)
    (calls : LoginCalls) {s : Session × Streams} (hs : placed s) :
    (onLoginResponse streamState dataState calls s).1 = .ok () := by
  have hrecorded : placed
      ((s.1.bump .mmtLoginResponseReceived).recordLogin streamState dataState, s.2) := hs
  unfold onLoginResponse
  split
  · split
    · exact onLoginSuccess_ok hrecorded
    · rfl
    · rfl
  all_goals rfl

/-- An event of a session that has its place is handled without a fault. -/
theorem processEvent_ok (event : RfaEvent) {s : Session × Streams} (hs : placed s) :
    (processEvent event s).1 = .ok () := by
  unfold processEvent
  cases event with
  | loginResponse streamState dataState calls =>
    exact onLoginResponse_ok streamState dataState calls hs
  | otherResponse | otherItemEvent | ommCmdError | otherEvent => rfl

end Psych
