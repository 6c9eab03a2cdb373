import Psych.Rfa.HalfMade

/-!
# The counters of events

Every event goes down one path of the dispatch in `processEvent`, and is entered in a counter at
each branch. So what is received at a branch is what goes on from there and what is discarded, in
every session at any time (`events_accounted`), also where RFA throws while a login success is
handled: its counter comes before the calls.
-/

namespace Psych

/-! ## The branches -/

/-- What is received is handed on or discarded, modulo `2 ^ 32`. -/
structure Balanced (stats : SessionCounter → BitVec 32) : Prop where
  events : stats .rfaEventsReceived =
    stats .ommItemEventsReceived + stats .ommCmdErrors + stats .rfaEventsDiscarded
  items : stats .ommItemEventsReceived =
    stats .ommItemEventsDiscarded + stats .responseMsgsReceived
  responses : stats .responseMsgsReceived =
    stats .responseMsgsDiscarded + stats .mmtLoginResponseReceived
  logins : stats .mmtLoginResponseReceived =
    stats .mmtLoginSuccessReceived + stats .mmtLoginSuspectReceived +
      stats .mmtLoginClosedReceived + stats .mmtLoginResponseDiscarded

/-- The counters of the branches. -/
def SessionCounter.ofEvent : SessionCounter → Bool
  | .rfaEventsReceived | .rfaEventsDiscarded | .ommCmdErrors
  | .ommItemEventsReceived | .ommItemEventsDiscarded
  | .responseMsgsReceived | .responseMsgsDiscarded
  | .mmtLoginResponseReceived | .mmtLoginResponseDiscarded
  | .mmtLoginSuccessReceived | .mmtLoginSuspectReceived | .mmtLoginClosedReceived => true
  | .rfaMsgsSent | .mmtLoginValidated | .mmtLoginMalformed | .mmtLoginSent
  | .mmtDirectoryValidated | .mmtDirectoryMalformed | .mmtDirectorySent | .tokensGenerated => false

/-- The counter of a login response by its states. -/
def loginCounter : StreamState → DataState → SessionCounter
  | .open, .ok => .mmtLoginSuccessReceived
  | .open, .suspect => .mmtLoginSuspectReceived
  | .closed, _ => .mmtLoginClosedReceived
  | _, _ => .mmtLoginResponseDiscarded

/-- The path of an event. -/
def RfaEvent.counters : RfaEvent → List SessionCounter
  | .loginResponse streamState dataState _ =>
    [.rfaEventsReceived, .ommItemEventsReceived, .responseMsgsReceived,
      .mmtLoginResponseReceived, loginCounter streamState dataState]
  | .otherResponse =>
    [.rfaEventsReceived, .ommItemEventsReceived, .responseMsgsReceived, .responseMsgsDiscarded]
  | .otherItemEvent => [.rfaEventsReceived, .ommItemEventsReceived, .ommItemEventsDiscarded]
  | .ommCmdError => [.rfaEventsReceived, .ommCmdErrors]
  | .otherEvent => [.rfaEventsReceived, .rfaEventsDiscarded]

theorem Balanced.zero : Balanced fun _ => 0 := ⟨rfl, rfl, rfl, rfl⟩

theorem Balanced.add {f g : SessionCounter → BitVec 32} (h : Balanced f) (h' : Balanced g) :
    Balanced fun c => f c + g c := by
  constructor
  · rw [h.events, h'.events]
    ac_rfl
  · rw [h.items, h'.items]
    ac_rfl
  · rw [h.responses, h'.responses]
    ac_rfl
  · rw [h.logins, h'.logins]
    ac_rfl

/-- The balance is one of the counters of the branches. -/
theorem Balanced.congr {f g : SessionCounter → BitVec 32} (h : Balanced f)
    (heq : ∀ c, c.ofEvent = true → g c = f c) : Balanced g := by
  constructor
  · rw [heq _ rfl, heq _ rfl, heq _ rfl, heq _ rfl, h.events]
  · rw [heq _ rfl, heq _ rfl, heq _ rfl, h.items]
  · rw [heq _ rfl, heq _ rfl, heq _ rfl, h.responses]
  · rw [heq _ rfl, heq _ rfl, heq _ rfl, heq _ rfl, heq _ rfl, h.logins]

/-- A path takes one branch at each of its counters. -/
theorem balanced_counters (event : RfaEvent) :
    Balanced fun c => BitVec.ofNat 32 (event.counters.count c) := by
  cases event with
  | loginResponse streamState dataState calls =>
    cases streamState <;> cases dataState <;> exact ⟨rfl, rfl, rfl, rfl⟩
  | otherResponse | otherItemEvent | ommCmdError | otherEvent => exact ⟨rfl, rfl, rfl, rfl⟩

/-! ## One event -/

/-- The session with each of the counters one higher. -/
def Session.enter (counters : List SessionCounter) (s : Session) : Session :=
  counters.foldl Session.bump s

theorem bump_stats (s : Session) (counter c : SessionCounter) :
    (s.bump counter).stats c = s.stats c + BitVec.ofNat 32 ([counter].count c) := by
  unfold Session.bump
  by_cases hc : c = counter
  · subst hc
    simp
  · simp [hc, Ne.symm hc]

theorem enter_stats (counters : List SessionCounter) (s : Session) (c : SessionCounter) :
    (s.enter counters).stats c = s.stats c + BitVec.ofNat 32 (counters.count c) := by
  induction counters generalizing s with
  | nil => exact (BitVec.add_zero _).symm
  | cons counter counters ih =>
    calc
      (s.enter (counter :: counters)).stats c =
          (s.bump counter).stats c + BitVec.ofNat 32 (counters.count c) := ih (s.bump counter)
      _ = s.stats c + BitVec.ofNat 32 ((counter :: counters).count c) := by
        rw [bump_stats, BitVec.add_assoc, ← BitVec.ofNat_add, ← List.count_append]
        rfl

/-- No event is counted between the two states of a session. -/
def SameEvents (s t : Session) : Prop := ∀ c, c.ofEvent = true → t.stats c = s.stats c

theorem SameEvents.refl (s : Session) : SameEvents s s := fun _ _ => rfl

theorem SameEvents.trans {s t u : Session} (h : SameEvents s t) (h' : SameEvents t u) :
    SameEvents s u := fun c hc => (h' c hc).trans (h c hc)

theorem ne_of_ofEvent {counter c : SessionCounter} (h : counter.ofEvent = false)
    (hc : c.ofEvent = true) : c ≠ counter := by
  rintro rfl
  rw [h] at hc
  cases hc

theorem sameEvents_bump (s : Session) {counter : SessionCounter}
    (h : counter.ofEvent = false) : SameEvents s (s.bump counter) :=
  fun _ hc => if_neg (ne_of_ofEvent h hc)

theorem submit_sameEvents (ok : Bool) (obs : SessionObs) (s : Session) :
    SameEvents s (s.submit ok obs).2 := by
  unfold Session.submit
  split
  · exact .refl s
  · split
    · exact sameEvents_bump (s.record obs) rfl
    · exact .refl s

theorem send_sameEvents (ok : Bool) (message : Message) (token : Token) (s : Session) :
    SameEvents s (s.send ok message token).2 := by
  unfold Session.send
  split
  · exact .refl s
  · exact submit_sameEvents ok _ s

theorem sendDirectoryResponse_sameEvents (calls : LoginCalls) (s : Session) :
    SameEvents s (s.sendDirectoryResponse calls).2 := by
  have hvalidated : SameEvents s (s.bump .mmtDirectoryValidated) := sameEvents_bump s rfl
  have hsubmit := hvalidated.trans
    (submit_sameEvents calls.submit .directory (s.bump .mmtDirectoryValidated))
  unfold Session.sendDirectoryResponse
  dsimp only
  split
  · exact .refl s
  · split
    · exact sameEvents_bump s rfl
    · split
      · exact hvalidated
      · split
        · exact hvalidated
        · split
          · rename_i heq
            rw [heq] at hsubmit
            exact hsubmit
          · rename_i heq
            rw [heq] at hsubmit
            exact hsubmit.trans (sameEvents_bump _ rfl)

theorem resetToken_sameEvents (calls : LoginCalls) (entry : (Text × Nat) × Nat)
    (s : Session × Streams) : SameEvents s.1 (resetToken calls entry s).2.1 := by
  unfold resetToken
  split
  · exact .refl s.1
  · split
    · exact .refl s.1
    · split
      · exact .refl s.1
      · split
        · exact .refl s.1
        · exact sameEvents_bump s.1 rfl

theorem unmute_sameEvents (calls : LoginCalls) (s : Session × Streams) :
    SameEvents s.1 (unmute calls s).2.1 := by
  have hreset : SameEvents s.1 (resetTokens calls s).2.1 := by
    unfold resetTokens
    split
    · exact .refl s.1
    · exact Faults.forEach_rel (fun s t : Session × Streams => SameEvents s.1 t.1)
        (fun s => .refl s.1) (fun _ _ _ h h' => h.trans h') (resetToken_sameEvents calls) _ s
  unfold unmute
  split <;> rename_i heq <;> rw [heq] at hreset <;> exact hreset

/-- A login success is counted before RFA can throw. -/
theorem onLoginSuccess_sameEvents (calls : LoginCalls) (s : Session × Streams) :
    SameEvents (s.1.bump .mmtLoginSuccessReceived) (onLoginSuccess calls s).2.1 := by
  have hdirectory :=
    sendDirectoryResponse_sameEvents calls (s.1.bump .mmtLoginSuccessReceived)
  unfold onLoginSuccess
  split <;> rename_i heq <;> rw [heq] at hdirectory
  · exact hdirectory
  · exact hdirectory
  · exact hdirectory.trans (unmute_sameEvents calls _)

/-- An event is entered in the counters of its path and in no others. -/
theorem processEvent_counters (event : RfaEvent) (s : Session × Streams) :
    SameEvents (s.1.enter event.counters) (processEvent event s).2.1 := by
  cases event with
  | loginResponse streamState dataState calls =>
    unfold processEvent onLoginResponse
    cases streamState with
    | «open» =>
      cases dataState with
      | ok => exact fun c hc => onLoginSuccess_sameEvents calls _ c hc
      | suspect | unspecified => exact fun _ _ => rfl
    | closed | unspecified | nonStreaming | closedRecover | redirected => exact fun _ _ => rfl
  | otherResponse | otherItemEvent | ommCmdError | otherEvent => exact fun _ _ => rfl

theorem Balanced.processEvent {s : Session × Streams} (h : Balanced s.1.stats) (event : RfaEvent) :
    Balanced (processEvent event s).2.1.stats := by
  refine (h.add (balanced_counters event)).congr fun c hc => ?_
  rw [processEvent_counters event s c hc, enter_stats]

theorem Balanced.of_sameEvents {s t : Session} (h : Balanced s.stats) (hsame : SameEvents s t) :
    Balanced t.stats := h.congr hsame

/-! ## The set-up -/

theorem setupBump_stats (s : SessionSetup) {counter c : SessionCounter}
    (h : counter.ofEvent = false) (hc : c.ofEvent = true) : (s.bump counter).stats c = s.stats c :=
  if_neg (ne_of_ofEvent h hc)

theorem sendLoginRequest_stats (calls : SetupCalls) (s : SessionSetup × RwfVersion)
    {c : SessionCounter} (hc : c.ofEvent = true) :
    (sendLoginRequest calls s).2.1.stats c = s.1.stats c := by
  have hvalidated : (s.1.bump (if calls.warning then .mmtLoginMalformed
      else .mmtLoginValidated)).stats c = s.1.stats c := by
    refine setupBump_stats s.1 ?_ hc
    split <;> rfl
  have hsent := (@setupBump_stats _ .mmtLoginSent c rfl hc).trans hvalidated
  unfold sendLoginRequest
  dsimp only
  split
  · exact hvalidated
  · split <;> exact hsent

/-- No counter of the branches moves while a session is set up. -/
theorem createOMMProvider_stats (calls : SetupCalls) (s : SessionSetup × RwfVersion)
    {c : SessionCounter} (hc : c.ofEvent = true) :
    (createOMMProvider calls s).2.1.stats c = s.1.stats c := by
  unfold createOMMProvider
  dsimp only
  split
  · rfl
  · split
    · rfl
    · split
      · rfl
      · split
        · rfl
        · exact sendLoginRequest_stats calls _ hc

/-- After `Init` no session has seen an event. -/
theorem providerInit_stats (verified : Bool) (calls : List SetupCalls) {c : SessionCounter}
    (hc : c.ofEvent = true) : ∀ t ∈ (providerInit verified calls).2.sessions, t.stats c = 0 := by
  have hacquired : ∀ session ∈ acquired calls, session.2.stats c = 0 := by
    intro session hsession
    obtain ⟨call, _, rfl⟩ := List.mem_map.mp hsession
    rfl
  have hloop : ∀ t ∈ (Faults.forEach setUpSession (acquired calls) {}).2.sessions,
      t.stats c = 0 := by
    refine Faults.forEach_invariant (fun setup : ProviderSetup => ∀ t ∈ setup.sessions,
      t.stats c = 0) (fun session hsession setup h => ?_) (by simp)
    have hnew := (createOMMProvider_stats session.1 (session.2, setup.minRwfVersion) hc).trans
      (hacquired session hsession)
    unfold setUpSession
    split <;> rename_i heq <;> rw [heq] at hnew <;>
      exact List.forall_mem_append.mpr ⟨h, List.forall_mem_singleton.mpr hnew⟩
  unfold providerInit
  split
  · intro t ht
    obtain ⟨session, hsession, rfl⟩ := List.mem_map.mp ht
    exact hacquired session hsession
  · split <;> rename_i heq <;> rw [heq] at hloop <;> exact hloop

theorem ProviderSetup.provider_balanced {setup : ProviderSetup}
    (h : ∀ t ∈ setup.sessions, ∀ c : SessionCounter, c.ofEvent = true → t.stats c = 0) :
    ∀ s ∈ setup.provider.sessions, Balanced s.stats := by
  intro s hs
  obtain ⟨entry, hentry, rfl⟩ := List.mem_map.mp hs
  exact Balanced.zero.congr (h entry.1 (List.fst_mem_of_mem_zipIdx hentry))

/-! ## Runs -/

theorem forall_mem_set {P : Session → Prop} {sessions : List Session} (h : ∀ s ∈ sessions, P s)
    (i : Nat) {t : Session} (ht : P t) : ∀ s ∈ sessions.set i t, P s := by
  intro s hs
  rcases List.mem_or_eq_of_mem_set hs with hmem | rfl
  · exact h s hmem
  · exact ht

theorem createToken_forall {P : Session → Prop} (htoken : ∀ s, P s → P (s.bump .tokensGenerated))
    (tokens : Nat → Option Nat) (i : Nat) {r : List Session × List Token} (h : ∀ s ∈ r.1, P s) :
    ∀ s ∈ (createToken tokens i r).2.1, P s := by
  unfold createToken
  split
  · exact h
  · rename_i session hsession
    split
    · exact h
    · split
      · exact h
      · split
        · exact h
        · exact forall_mem_set h i (htoken session (h session (List.mem_of_getElem? hsession)))

/-- What the operations of a session keep holds of all sessions of the provider. -/
theorem TokenInput.forall_sessions {P : Session → Prop}
    (hevent : ∀ e s, P s.1 → P (Psych.processEvent e s).2.1)
    (hsend : ∀ ok message token s, P s → P (s.send ok message token).2)
    (htoken : ∀ s, P s → P (s.bump .tokensGenerated)) (input : TokenInput) {p : Provider}
    (h : ∀ s ∈ p.sessions, P s) : ∀ s ∈ (input.apply p).sessions, P s := by
  cases input with
  | create name tokens =>
    have hloop := Faults.forEach_invariant (f := createToken tokens)
      (l := List.range p.sessions.length) (fun r => ∀ s ∈ r.1, P s)
      (fun i _ r hr => createToken_forall htoken tokens i hr)
      (s := (p.sessions, List.replicate p.sessions.length none)) h
    unfold TokenInput.apply Provider.createItemStream
    dsimp only
    split <;> rename_i heq <;> rw [heq] at hloop <;> exact hloop
  | expire stream => exact h
  | event i e =>
    unfold TokenInput.apply Provider.processEvent
    dsimp only
    split
    · exact h
    · rename_i session hsession
      have hs := h session (List.mem_of_getElem? hsession)
      exact forall_mem_set h i (hevent e (session, p.streams) hs)
  | give stream message submit i =>
    unfold TokenInput.apply Provider.giveTo
    dsimp only
    split
    · rename_i session token hsession _
      have hs := h session (List.mem_of_getElem? hsession)
      exact forall_mem_set h i (hsend submit message token session hs)
    · exact h

/-- After every event of every run, each session has handed on or discarded what it received. -/
theorem events_accounted (verified : Bool) (calls : List SetupCalls) (inputs : List TokenInput) :
    ∀ p ∈ inputs.scanl (fun p input => input.apply p) (providerInit verified calls).2.provider,
      ∀ s ∈ p.sessions, Balanced s.stats := by
  refine Runs.forall_scanl_of_invariant (fun p : Provider => ∀ s ∈ p.sessions, Balanced s.stats)
    (fun p input h => ?_) ?_ inputs
  · exact input.forall_sessions (P := fun s => Balanced s.stats)
      (fun e s hs => hs.processEvent e)
      (fun ok message token s hs => hs.of_sameEvents (send_sameEvents ok message token s))
      (fun s hs => hs.of_sameEvents (sameEvents_bump s rfl)) h
  · exact ProviderSetup.provider_balanced fun t ht c hc =>
      providerInit_stats verified calls hc t ht

/-- A login success where RFA throws, and a command error. -/
def thrownLogin : List TokenInput :=
  [.event 0 (.loginResponse .open .ok { encodeDirectory := false }), .event 0 .ommCmdError]

theorem thrown_login_accounted :
    ∃ s, (thrownLogin.foldl (fun p input => input.apply p)
        (providerInit true [{ login := some ⟨14, 1⟩ }]).2.provider).sessions = [s] ∧
      s.stats .rfaEventsReceived = 2 ∧ s.stats .mmtLoginSuccessReceived = 1 ∧
      Balanced s.stats := by
  refine ⟨_, rfl, by decide, by decide, ?_⟩
  exact events_accounted true [{ login := some ⟨14, 1⟩ }] thrownLogin _
    (List.mem_of_getLast? List.getLast?_scanl) _ List.mem_cons_self

end Psych
