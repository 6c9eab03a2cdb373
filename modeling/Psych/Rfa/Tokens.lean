import Psych.Rfa.Provider

/-!
# Item tokens

A session generates the token of an item stream when the stream is created, unless it is muted
(`createTokens_created`), and the tokens of all live streams of the directory when a login
succeeds. A login that fails half way leaves some tokens replaced, none taken away
(`processEvent_tokens`).
-/

namespace Psych

/-! ## Creating an item stream -/

/-- `session_t::CreateItemStream` of the `i`th session; `none` where `generateItemToken`
throws. -/
def createToken (tokens : Nat → Option Nat) (i : Nat) (s : List Session × List Token) :
    Except Fault Unit × (List Session × List Token) :=
  match s.1[i]? with
  | none => (.ok (), s)
  | some session =>
    if session.isMuted then (.ok (), s)
    else if !session.ommProvider then (.error .undefined, s)
    else
      match tokens i with
      | none => (.error .invalidUsage, s)
      | some token =>
        (.ok (), (s.1.set i (session.bump .tokensGenerated), s.2.set i (some token)))

/-- `provider_t::CreateItemStream`; the directory keeps the stream a name has. -/
def Provider.createItemStream (name : Text) (tokens : Nat → Option Nat) (p : Provider) :
    Except Fault Unit × Provider :=
  match Faults.forEach (createToken tokens) (List.range p.sessions.length)
      (p.sessions, List.replicate p.sessions.length none) with
  | (.error e, s) => (.error e, { p with sessions := s.1 })
  | (.ok (), s) =>
    (.ok (), { p with
      sessions := s.1
      streams :=
        { stream := p.streams.stream ++ [{ rfaName := name, token := s.2 }]
          directory := Emplace.emplace p.streams.directory (name, p.streams.stream.length) } })

/-- Before the first login no token is generated. -/
theorem createTokens_muted (tokens : Nat → Option Nat) (l : List Nat)
    {s : List Session × List Token} (h : ∀ session ∈ s.1, session.isMuted = true) :
    Faults.forEach (createToken tokens) l s = (.ok (), s) := by
  induction l with
  | nil => rfl
  | cons i l ih =>
    have hstep : createToken tokens i s = (.ok (), s) := by
      unfold createToken
      cases hs : s.1[i]? with
      | none => rfl
      | some session => simp [h session (List.mem_of_getElem? hs)]
    rw [Faults.forEach, hstep]
    exact ih

/-- The last `shared_ptr` to an item stream is given up. -/
def Streams.expire (k : Nat) (streams : Streams) : Streams :=
  { streams with stream := streams.stream.modify k fun stream => { stream with live := false } }

/-! ## Tokens of streams -/

/-- The token of the `k`th stream for the `i`th session. -/
def Streams.tokenAt (streams : Streams) (k i : Nat) : Option Token :=
  (streams.stream[k]?).bind fun stream => stream.token[i]?

theorem tokenAt_setToken (streams : Streams) (k i k' i' : Nat) (token : Token) :
    (streams.setToken k i token).tokenAt k' i' =
      if k' = k ∧ i' = i then (streams.tokenAt k i).map fun _ => token
      else streams.tokenAt k' i' := by
  unfold Streams.setToken Streams.tokenAt
  simp only [List.getElem?_modify]
  by_cases hk : k' = k
  · subst hk
    cases hstream : streams.stream[k']? with
    | none => simp
    | some stream =>
      by_cases hi : i' = i
      · subst hi
        by_cases hlt : i' < stream.token.length <;> simp [hlt]
      · simp [hi, Ne.symm hi]
  · simp [hk, Ne.symm hk]

/-- What regenerating the tokens of one session does: other entries stay, an entry that is set
stays set, and a new one is among the generated tokens. -/
structure Regenerated (itemToken : Nat → Option Nat) (instanceId : Nat)
    (streams streams' : Streams) : Prop where
  same : SameStreams streams streams'
  set : ∀ {k i t}, streams.tokenAt k i = some (some t) →
    ∃ t', streams'.tokenAt k i = some (some t')
  origin : ∀ {k i t}, streams'.tokenAt k i = some (some t) →
    streams.tokenAt k i = some (some t) ∨
      (i = instanceId ∧ ∃ name n, ((name, k), n) ∈ streams.directory.zipIdx ∧
        itemToken n = some t)

theorem Regenerated.refl (itemToken : Nat → Option Nat) (instanceId : Nat) (streams : Streams) :
    Regenerated itemToken instanceId streams streams :=
  ⟨.refl _, fun h => ⟨_, h⟩, Or.inl⟩

theorem Regenerated.trans {itemToken : Nat → Option Nat} {instanceId : Nat} {s t u : Streams}
    (h : Regenerated itemToken instanceId s t) (h' : Regenerated itemToken instanceId t u) :
    Regenerated itemToken instanceId s u := by
  refine ⟨h.same.trans h'.same, fun hset => ?_, fun htoken => ?_⟩
  · obtain ⟨t', ht'⟩ := h.set hset
    exact h'.set ht'
  · rcases h'.origin htoken with hold | hnew
    · exact h.origin hold
    · rw [h.same.directory] at hnew
      exact Or.inr hnew

theorem regenerated_setToken {itemToken : Nat → Option Nat} {instanceId : Nat} {streams : Streams}
    {name : Text} {k n token : Nat} (hentry : ((name, k), n) ∈ streams.directory.zipIdx)
    (htoken : itemToken n = some token) :
    Regenerated itemToken instanceId streams (streams.setToken k instanceId (some token)) := by
  refine ⟨sameStreams_setToken _ _ _ _, fun {k' i' t} hset => ?_, fun {k' i' t} hnew => ?_⟩
  · rw [tokenAt_setToken]
    split
    · rename_i heq
      obtain ⟨rfl, rfl⟩ := heq
      exact ⟨token, by rw [hset]; rfl⟩
    · exact ⟨t, hset⟩
  · rw [tokenAt_setToken] at hnew
    split at hnew
    · rename_i heq
      obtain ⟨rfl, rfl⟩ := heq
      obtain ⟨_, _, ht⟩ := Option.map_eq_some_iff.mp hnew
      cases ht
      exact Or.inr ⟨rfl, name, n, hentry, htoken⟩
    · exact Or.inl hnew

/-- Where the stream is live, its token for the session is set. -/
def Streams.SuppliedAt (streams : Streams) (i k : Nat) : Prop :=
  ∀ stream, streams.stream[k]? = some stream → stream.live = true →
    ∃ t, streams.tokenAt k i = some (some t)

/-- The token of every live stream of the directory is set for the session. -/
def Streams.Supplied (streams : Streams) (i : Nat) : Prop :=
  ∀ entry ∈ streams.directory, streams.SuppliedAt i entry.2

theorem SameStreams.live {streams streams' : Streams} (h : SameStreams streams streams') {k : Nat}
    {stream : ItemStream} (hstream : streams'.stream[k]? = some stream) :
    ∃ before, streams.stream[k]? = some before ∧ before.live = stream.live ∧
      before.token.length = stream.token.length ∧ before.rfaName = stream.rfaName := by
  have hshape := h.getElem? k
  rw [hstream] at hshape
  obtain ⟨before, hbefore, heq⟩ := Option.map_eq_some_iff.mp hshape.symm
  simp only [ItemStream.shape, Prod.mk.injEq] at heq
  exact ⟨before, hbefore, heq.2.1, heq.2.2, heq.1⟩

theorem Regenerated.suppliedAt {itemToken : Nat → Option Nat} {instanceId : Nat}
    {streams streams' : Streams} (h : Regenerated itemToken instanceId streams streams')
    {i k : Nat} (hsupplied : streams.SuppliedAt i k) : streams'.SuppliedAt i k := by
  intro stream hstream hlive
  obtain ⟨before, hbefore, heq, _⟩ := h.same.live hstream
  obtain ⟨t, ht⟩ := hsupplied before hbefore (heq.trans hlive)
  exact h.set ht

theorem Regenerated.supplied {itemToken : Nat → Option Nat} {instanceId : Nat}
    {streams streams' : Streams} (h : Regenerated itemToken instanceId streams streams')
    {i : Nat} (hsupplied : streams.Supplied i) : streams'.Supplied i := by
  intro entry hentry
  rw [h.same.directory] at hentry
  exact h.suppliedAt (hsupplied entry hentry)

/-! ## A login -/

theorem resetToken_regenerated {calls : LoginCalls} {entry : (Text × Nat) × Nat}
    {s : Session × Streams} (hentry : entry ∈ s.2.directory.zipIdx) :
    Regenerated calls.itemToken s.1.instanceId s.2 (resetToken calls entry s).2.2 ∧
      ((resetToken calls entry s).1 = .ok () →
        (resetToken calls entry s).2.2.SuppliedAt s.1.instanceId entry.1.2) := by
  unfold resetToken
  cases hstream : s.2.stream[entry.1.2]? with
  | none =>
    refine ⟨.refl _ _ _, fun _ stream hsome => ?_⟩
    rw [hstream] at hsome
    cases hsome
  | some stream =>
    dsimp only
    cases hlive : stream.live with
    | false =>
      refine ⟨.refl _ _ _, fun _ stream' hsome hlive' => ?_⟩
      obtain rfl := Option.some.inj (hstream.symm.trans hsome)
      rw [hlive] at hlive'
      cases hlive'
    | true =>
      rw [if_neg (by simp)]
      cases htoken : calls.itemToken entry.2 with
      | none => exact ⟨.refl _ _ _, fun hok => by cases hok⟩
      | some token =>
        dsimp only
        split
        · exact ⟨.refl _ _ _, fun hok => by cases hok⟩
        · rename_i hlength
          refine ⟨@regenerated_setToken calls.itemToken s.1.instanceId s.2 entry.1.1 entry.1.2
            entry.2 token hentry htoken, fun _ _ _ _ => ?_⟩
          refine ⟨token, ?_⟩
          rw [tokenAt_setToken, if_pos ⟨rfl, rfl⟩]
          unfold Streams.tokenAt
          rw [hstream, Option.bind_some, List.getElem?_eq_getElem (by omega)]
          rfl

/-- `ResetTokens`: where it does not throw, every live stream has its token. -/
theorem resetTokens_regenerated (calls : LoginCalls) {s : Session × Streams}
    (homm : s.1.ommProvider = true) :
    Regenerated calls.itemToken s.1.instanceId s.2 (resetTokens calls s).2.2 ∧
      ((resetTokens calls s).1 = .ok () →
        (resetTokens calls s).2.2.Supplied s.1.instanceId) := by
  unfold resetTokens
  rw [if_neg (by simp [homm])]
  have hstep : ∀ pre entry post (t : Session × Streams),
      s.2.directory.zipIdx = pre ++ entry :: post →
      (t.1.instanceId = s.1.instanceId ∧
        Regenerated calls.itemToken s.1.instanceId s.2 t.2) →
      let r := resetToken calls entry t
      (r.2.1.instanceId = s.1.instanceId ∧
        Regenerated calls.itemToken s.1.instanceId s.2 r.2.2) ∧
      Regenerated calls.itemToken s.1.instanceId t.2 r.2.2 ∧
      (r.1 = .ok () → r.2.2.SuppliedAt s.1.instanceId entry.1.2) := by
    intro pre entry post t hsplit ht
    have hentry : entry ∈ t.2.directory.zipIdx := by
      rw [ht.2.same.directory, hsplit]
      simp
    obtain ⟨hregenerated, hsupplied⟩ := @resetToken_regenerated calls entry t hentry
    rw [ht.1] at hregenerated hsupplied
    refine ⟨⟨?_, ht.2.trans hregenerated⟩, hregenerated, hsupplied⟩
    exact (resetToken_state calls entry t).1.instanceId.trans ht.1
  have hrun := Faults.forEach_prefix (f := resetToken calls) (l := s.2.directory.zipIdx) (s := s)
    (I := fun pre t => (t.1.instanceId = s.1.instanceId ∧
        Regenerated calls.itemToken s.1.instanceId s.2 t.2) ∧
      ∀ entry ∈ pre, t.2.SuppliedAt s.1.instanceId entry.1.2)
    (F := fun _ t => Regenerated calls.itemToken s.1.instanceId s.2 t.2)
    (fun pre entry post t hsplit hI hok => by
      obtain ⟨hkeep, hregenerated, hsupplied⟩ := hstep pre entry post t hsplit hI.1
      refine ⟨hkeep, fun entry' hentry' => ?_⟩
      rcases List.mem_append.mp hentry' with hpre | hnew
      · exact hregenerated.suppliedAt (hI.2 entry' hpre)
      · rw [List.mem_singleton.mp hnew]
        exact hsupplied hok)
    (fun pre entry post t e hsplit hI _ => (hstep pre entry post t hsplit hI.1).1.2)
    ⟨⟨rfl, .refl _ _ _⟩, by simp⟩
  rcases hrun with ⟨hok, hI⟩ | ⟨e, he, hF⟩
  · refine ⟨hI.1.2, fun _ entry hentry => ?_⟩
    rw [hI.1.2.same.directory] at hentry
    obtain ⟨n, hn, rfl⟩ := List.getElem_of_mem hentry
    exact hI.2 (s.2.directory[n], n) (List.mem_zipIdx_iff_getElem?.mpr
      (List.getElem?_eq_getElem hn))
  · exact ⟨hF, fun hok => by rw [he] at hok; cases hok⟩

/-- What an event leaves of the tokens and of the session: where the session is unmuted, it was
before, or every live stream has its token. -/
structure TokensAfter (itemToken : Nat → Option Nat) (s t : Session × Streams) : Prop where
  regenerated : Regenerated itemToken s.1.instanceId s.2 t.2
  unmuted : t.1.isMuted = false →
    s.1.isMuted = false ∨ (t.1.ommProvider = true ∧ t.2.Supplied s.1.instanceId)
  items : ∀ {message token}, .item message token ∈ t.1.history → .item message token ∈ s.1.history

theorem unmute_tokens (calls : LoginCalls) {s : Session × Streams}
    (homm : s.1.ommProvider = true) : TokensAfter calls.itemToken s (unmute calls s).2 := by
  obtain ⟨hregenerated, hsupplied⟩ := resetTokens_regenerated calls homm
  have hlogin := (resetTokens_spec calls s).2
  unfold unmute
  cases hr : resetTokens calls s with
  | mk r t =>
    rw [hr] at hregenerated hsupplied hlogin
    have hitems : ∀ {message token}, SessionObs.item message token ∈ t.1.history →
        .item message token ∈ s.1.history := fun h => hlogin.history ▸ h
    cases r with
    | ok _ =>
      exact ⟨hregenerated, fun _ => Or.inr ⟨hlogin.ommProvider.trans homm, hsupplied rfl⟩, hitems⟩
    | error e =>
      have hmuted : t.1.isMuted = false → s.1.isMuted = false := fun h => hlogin.isMuted ▸ h
      cases e <;> exact ⟨hregenerated, fun h => Or.inl (hmuted h), hitems⟩

theorem TokensAfter.congr {itemToken : Nat → Option Nat} {s s' t : Session × Streams}
    (h : TokensAfter itemToken s t) (hstreams : s'.2 = s.2)
    (hid : s'.1.instanceId = s.1.instanceId) (hmuted : s'.1.isMuted = s.1.isMuted)
    (hitems : ∀ {message token}, .item message token ∈ s.1.history →
      .item message token ∈ s'.1.history) : TokensAfter itemToken s' t := by
  refine ⟨?_, fun hunmuted => ?_, fun hitem => hitems (h.items hitem)⟩
  · rw [hstreams, hid]
    exact h.regenerated
  · rw [hmuted, hid]
    exact h.unmuted hunmuted

theorem TokensAfter.quiet {itemToken : Nat → Option Nat} {s : Session × Streams} {t : Session}
    (hmuted : t.isMuted = false → s.1.isMuted = false)
    (hitems : ∀ {message token}, .item message token ∈ t.history →
      .item message token ∈ s.1.history) : TokensAfter itemToken s (t, s.2) :=
  ⟨.refl _ _ _, fun hunmuted => Or.inl (hmuted hunmuted), hitems⟩

theorem onLoginSuccess_tokens (calls : LoginCalls) {s : Session × Streams}
    (homm : s.1.ommProvider = true) :
    TokensAfter calls.itemToken s (onLoginSuccess calls s).2 := by
  unfold onLoginSuccess
  rcases sendDirectoryResponse_spec calls (s.1.bump .mmtLoginSuccessReceived) with
    ⟨t, ht, _, _, heq⟩ | ⟨t, ht, _, _, heq⟩ | ⟨t, e, ht, _, _, heq⟩
  · rw [heq]
    have htokens := @unmute_tokens calls (t.record .directory, s.2) (ht.ommProvider.trans homm)
    refine htokens.congr rfl ht.instanceId.symm ht.isMuted.symm fun {message token} hitem => ?_
    have hmem : .item message token ∈ t.history := by simpa [Session.record] using hitem
    exact ht.history ▸ hmem
  · rw [heq]
    have htokens := @unmute_tokens calls (t, s.2) (ht.ommProvider.trans homm)
    exact htokens.congr rfl ht.instanceId.symm ht.isMuted.symm fun hitem => ht.history ▸ hitem
  · rw [heq]
    have hmuted : t.isMuted = false → s.1.isMuted = false := fun h => ht.isMuted ▸ h
    cases e <;> exact .quiet hmuted fun hitem => ht.history ▸ hitem

/-- The tokens generated while an event is handled. -/
def RfaEvent.itemToken : RfaEvent → Nat → Option Nat
  | .loginResponse _ _ calls => calls.itemToken
  | _ => fun _ => none

/-- A login response comes to a session that has its OMM provider. -/
def RfaEvent.Delivered (event : RfaEvent) (s : Session) : Prop :=
  match event with
  | .loginResponse .. => s.ommProvider = true
  | _ => True

theorem onLoginResponse_tokens (streamState : StreamState) (dataState : DataState)
    (calls : LoginCalls) {s : Session × Streams} (homm : s.1.ommProvider = true) :
    TokensAfter calls.itemToken s (onLoginResponse streamState dataState calls s).2 := by
  have hitem : ∀ {message token},
      SessionObs.item message token ∈ .login streamState dataState :: s.1.history →
        .item message token ∈ s.1.history := fun h => by simpa using h
  have hsuccess := @onLoginSuccess_tokens calls
    ((s.1.bump .mmtLoginResponseReceived).recordLogin streamState dataState, s.2) homm
  unfold onLoginResponse
  cases streamState with
  | «open» =>
    cases dataState with
    | ok => exact hsuccess.congr rfl rfl rfl hitem
    | suspect => exact .quiet (fun h => by cases h) hitem
    | unspecified => exact .quiet id hitem
  | closed => exact .quiet (fun h => by cases h) hitem
  | unspecified | nonStreaming | closedRecover | redirected => exact .quiet id hitem

theorem processEvent_tokens {event : RfaEvent} {s : Session × Streams}
    (hdelivered : event.Delivered s.1) :
    TokensAfter event.itemToken s (processEvent event s).2 := by
  cases event with
  | loginResponse streamState dataState calls =>
    have hlogin := @onLoginResponse_tokens streamState dataState calls
      (((s.1.bump .rfaEventsReceived).bump .ommItemEventsReceived).bump .responseMsgsReceived, s.2)
      hdelivered
    exact hlogin.congr rfl rfl rfl id
  | otherResponse | otherItemEvent | ommCmdError | otherEvent => exact .quiet id id

/-! ## A creation -/

/-- The same sessions, up to their counters. -/
structure SameSessions (l l' : List Session) : Prop where
  length : l'.length = l.length
  session : ∀ {i : Nat} {t}, l'[i]? = some t → ∃ s, l[i]? = some s ∧ SameLogin s t

theorem SameSessions.refl (l : List Session) : SameSessions l l := ⟨rfl, fun h => ⟨_, h, .refl _⟩⟩

theorem SameSessions.trans {l m n : List Session} (h : SameSessions l m) (h' : SameSessions m n) :
    SameSessions l n := by
  refine ⟨h'.length.trans h.length, fun {i t} ht => ?_⟩
  obtain ⟨u, hu, hsame'⟩ := h'.session ht
  obtain ⟨s, hs, hsame⟩ := h.session hu
  exact ⟨s, hs, hsame.trans hsame'⟩

theorem sameSessions_set {l : List Session} {i : Nat} {s t : Session} (hs : l[i]? = some s)
    (h : SameLogin s t) : SameSessions l (l.set i t) := by
  refine ⟨List.length_set .., fun {j u} hu => ?_⟩
  by_cases hij : i = j
  · subst hij
    have hlt : i < l.length := (List.getElem?_eq_some_iff.mp hs).1
    rw [List.getElem?_set_self hlt] at hu
    exact ⟨s, hs, Option.some.inj hu ▸ h⟩
  · rw [List.getElem?_set_ne hij] at hu
    exact ⟨u, hu, .refl u⟩

/-- What the sessions have made of the tokens of a new stream. -/
structure TokensCreated (tokens : Nat → Option Nat) (s t : List Session × List Token) : Prop where
  sessions : SameSessions s.1 t.1
  length : t.2.length = s.2.length
  set : ∀ {i n : Nat}, s.2[i]? = some (some n) → ∃ n', t.2[i]? = some (some n')
  origin : ∀ {i n : Nat}, t.2[i]? = some (some n) → s.2[i]? = some (some n) ∨ tokens i = some n

theorem TokensCreated.refl (tokens : Nat → Option Nat) (s : List Session × List Token) :
    TokensCreated tokens s s :=
  ⟨.refl _, rfl, fun h => ⟨_, h⟩, Or.inl⟩

theorem TokensCreated.trans {tokens : Nat → Option Nat} {s t u : List Session × List Token}
    (h : TokensCreated tokens s t) (h' : TokensCreated tokens t u) : TokensCreated tokens s u := by
  refine ⟨h.sessions.trans h'.sessions, h'.length.trans h.length, fun hset => ?_, fun hnew => ?_⟩
  · obtain ⟨n, hn⟩ := h.set hset
    exact h'.set hn
  · rcases h'.origin hnew with hold | htoken
    · exact h.origin hold
    · exact Or.inr htoken

/-- The token of the `i`th session is set if the session is unmuted. -/
def CreatedAt (s : List Session × List Token) (i : Nat) : Prop :=
  ∀ session, s.1[i]? = some session → session.isMuted = false → ∃ n, s.2[i]? = some (some n)

theorem TokensCreated.createdAt {tokens : Nat → Option Nat} {s t : List Session × List Token}
    (h : TokensCreated tokens s t) {i : Nat} (hcreated : CreatedAt s i) : CreatedAt t i := by
  intro session hsession hunmuted
  obtain ⟨before, hbefore, hsame⟩ := h.sessions.session hsession
  obtain ⟨n, hn⟩ := hcreated before hbefore (hsame.isMuted ▸ hunmuted)
  exact h.set hn

theorem createToken_created (tokens : Nat → Option Nat) {i : Nat}
    {s : List Session × List Token} (hi : i < s.2.length) :
    TokensCreated tokens s (createToken tokens i s).2 ∧
      ((createToken tokens i s).1 = .ok () → CreatedAt (createToken tokens i s).2 i) := by
  unfold createToken
  cases hsession : s.1[i]? with
  | none => exact ⟨.refl _ _, fun _ session h => by rw [hsession] at h; cases h⟩
  | some session =>
    dsimp only
    cases hmuted : session.isMuted with
    | true =>
      refine ⟨.refl _ _, fun _ session' h hunmuted => ?_⟩
      obtain rfl := Option.some.inj (hsession.symm.trans h)
      rw [hmuted] at hunmuted
      cases hunmuted
    | false =>
      rw [if_neg (by simp)]
      split
      · exact ⟨.refl _ _, fun h => by cases h⟩
      · cases htoken : tokens i with
        | none => exact ⟨.refl _ _, fun h => by cases h⟩
        | some token =>
          dsimp only
          refine ⟨⟨sameSessions_set hsession (sameLogin_bump _ _), List.length_set .., ?_, ?_⟩,
            fun _ _ _ _ => ⟨token, List.getElem?_set_self hi⟩⟩
          · intro j n hn
            by_cases hij : i = j
            · subst hij
              exact ⟨token, List.getElem?_set_self hi⟩
            · exact ⟨n, by rw [List.getElem?_set_ne hij]; exact hn⟩
          · intro j n hn
            by_cases hij : i = j
            · subst hij
              rw [List.getElem?_set_self hi] at hn
              cases hn
              exact Or.inr htoken
            · rw [List.getElem?_set_ne hij] at hn
              exact Or.inl hn

/-- The loop of `provider_t::CreateItemStream`: where no session throws, each unmuted one has its
token. -/
theorem createTokens_created (tokens : Nat → Option Nat) (sessions : List Session) :
    let s := (sessions, List.replicate sessions.length (none : Token))
    let r := Faults.forEach (createToken tokens) (List.range sessions.length) s
    TokensCreated tokens s r.2 ∧ (r.1 = .ok () → ∀ i < sessions.length, CreatedAt r.2 i) := by
  intro s r
  have hstep : ∀ pre i post t, List.range sessions.length = pre ++ i :: post →
      TokensCreated tokens s t →
      TokensCreated tokens s (createToken tokens i t).2 ∧
        TokensCreated tokens t (createToken tokens i t).2 ∧
        ((createToken tokens i t).1 = .ok () → CreatedAt (createToken tokens i t).2 i) := by
    intro pre i post t hsplit ht
    have hi : i < t.2.length := by
      rw [ht.length, List.length_replicate, ← List.mem_range, hsplit]
      simp
    obtain ⟨hcreated, hat⟩ := createToken_created tokens hi
    exact ⟨ht.trans hcreated, hcreated, hat⟩
  have hrun := Faults.forEach_prefix (f := createToken tokens)
    (l := List.range sessions.length) (s := s)
    (I := fun pre t => TokensCreated tokens s t ∧ ∀ i ∈ pre, CreatedAt t i)
    (F := fun _ t => TokensCreated tokens s t)
    (fun pre i post t hsplit hI hok => by
      obtain ⟨hall, hone, hat⟩ := hstep pre i post t hsplit hI.1
      refine ⟨hall, fun j hj => ?_⟩
      rcases List.mem_append.mp hj with hpre | hnew
      · exact hone.createdAt (hI.2 j hpre)
      · rw [List.mem_singleton.mp hnew]
        exact hat hok)
    (fun pre i post t e hsplit hI _ => (hstep pre i post t hsplit hI.1).1)
    ⟨.refl _ _, by simp⟩
  rcases hrun with ⟨hok, hI⟩ | ⟨e, he, hF⟩
  · exact ⟨hI.1, fun _ i hi => hI.2 i (List.mem_range.mpr hi)⟩
  · exact ⟨hF, fun hok => by rw [he] at hok; cases hok⟩

end Psych
