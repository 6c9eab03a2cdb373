import Psych.Model.Sample
import Psych.Publish.Rows
import Psych.Rfa.EventCounters
import Psych.Snmp.Tables
import Psych.Timer.Feed

/-!
# What is reported of a session

The columns of a session are counters and the states that are stored with a login response. What a
session has done is in its history, and in every run of the feed the columns for messages, directories
and login responses say what the history says, modulo 2 ^ 32 (`sessions_reported`). Everything that is
done to a session only adds to its history, and counts what it adds (`Tracks`).
-/

namespace Psych

/-! ## The report -/

/-- The counters of an entry. -/
def SessionObs.counters : SessionObs → List SessionCounter
  | .login streamState dataState =>
    [.mmtLoginResponseReceived, loginCounter streamState dataState]
  | .directory => [.rfaMsgsSent, .mmtDirectorySent]
  | .item _ _ => [.rfaMsgsSent]

/-- The states of an entry. -/
def SessionObs.login? : SessionObs → Option (StreamState × DataState)
  | .login streamState dataState => some (streamState, dataState)
  | .directory | .item _ _ => none

/-- The counters that the history accounts for. -/
def SessionCounter.ofHistory : SessionCounter → Bool
  | .rfaMsgsSent | .mmtDirectorySent
  | .mmtLoginResponseReceived | .mmtLoginResponseDiscarded
  | .mmtLoginSuccessReceived | .mmtLoginSuspectReceived | .mmtLoginClosedReceived => true
  | .rfaEventsReceived | .rfaEventsDiscarded | .ommItemEventsReceived | .ommItemEventsDiscarded
  | .responseMsgsReceived | .responseMsgsDiscarded | .ommCmdErrors
  | .mmtLoginValidated | .mmtLoginMalformed | .mmtLoginSent
  | .mmtDirectoryValidated | .mmtDirectoryMalformed | .tokensGenerated => false

/-- How often the entries are counted. -/
def entered (history : List SessionObs) (c : SessionCounter) : BitVec 32 :=
  BitVec.ofNat 32 ((history.flatMap SessionObs.counters).count c)

/-- The states of the newest login response. -/
def lastLogin (history : List SessionObs) : StreamState × DataState :=
  (history.findSome? SessionObs.login?).getD (.unspecified, .unspecified)

/-- What a column is to say by the history; `none` where the history does not tell. -/
def reportedColumn (history : List SessionObs) : Nat → Option SnmpValue
  | 5 => some (.counter (entered history .rfaMsgsSent))
  | 12 => some (.counter (entered history .mmtLoginResponseReceived))
  | 13 => some (.counter (entered history .mmtLoginResponseDiscarded))
  | 14 => some (.counter (entered history .mmtLoginSuccessReceived))
  | 15 => some (.counter (entered history .mmtLoginSuspectReceived))
  | 16 => some (.counter (entered history .mmtLoginClosedReceived))
  | 23 => some (.counter (entered history .mmtDirectorySent))
  | 25 => some (.integer (lastLogin history).1.number)
  | 26 => some (.integer (lastLogin history).2.number)
  | _ => none

/-- The answer says what the session has done, where the history tells. -/
def AnswersHistory (request : TableRequest SessionRow) (answer : SnmpAnswer) : Prop :=
  ∀ row ∈ request.row, ∀ colnum ∈ request.colnum,
    ∀ value ∈ reportedColumn row.session.history colnum, answer = .value value

/-- The counters and the states of the session are those of its history. -/
structure Session.Reported (s : Session) : Prop where
  counter : ∀ c, c.ofHistory = true → s.stats c = entered s.history c
  state : (s.streamState, s.dataState) = lastLogin s.history

theorem Session.Reported.counter_answer {s : Session} (h : s.Reported) {c : SessionCounter}
    (hc : c.ofHistory = true) {value : SnmpValue}
    (hvalue : some (.counter (entered s.history c)) = some value) :
    (.ok (.value (.counter (s.stats c))) : Except Fault SnmpAnswer) = .ok (.value value) := by
  rw [← Option.some.inj hvalue, h.counter c hc]

theorem Session.Reported.column {row : SessionRow} (h : row.session.Reported) {colnum : Nat}
    {value : SnmpValue} (hvalue : reportedColumn row.session.history colnum = some value) :
    psychSessionPerformanceTable.answer ⟨some row, some colnum⟩ = .ok (.value value) := by
  have hstream : row.session.streamState = (lastLogin row.session.history).1 :=
    congrArg Prod.fst h.state
  have hdata : row.session.dataState = (lastLogin row.session.history).2 :=
    congrArg Prod.snd h.state
  unfold reportedColumn at hvalue
  split at hvalue
  · exact h.counter_answer rfl hvalue
  · exact h.counter_answer rfl hvalue
  · exact h.counter_answer rfl hvalue
  · exact h.counter_answer rfl hvalue
  · exact h.counter_answer rfl hvalue
  · exact h.counter_answer rfl hvalue
  · exact h.counter_answer rfl hvalue
  · rw [← Option.some.inj hvalue, ← hstream]
    rfl
  · rw [← Option.some.inj hvalue, ← hdata]
    rfl
  · cases hvalue

/-! ## Sessions -/

/-- A session later on: what is new in its history is counted, and its states are those of the last
login response. -/
def Tracks (s t : Session) : Prop :=
  ∃ new, t.history = new ++ s.history ∧
    (∀ c, c.ofHistory = true → t.stats c = s.stats c + entered new c) ∧
    (t.streamState, t.dataState) =
      (new.findSome? SessionObs.login?).getD (s.streamState, s.dataState)

theorem entered_append (new history : List SessionObs) (c : SessionCounter) :
    entered (new ++ history) c = entered history c + entered new c := by
  unfold entered
  rw [List.flatMap_append, List.count_append, BitVec.ofNat_add, BitVec.add_comm]

theorem Tracks.refl (s : Session) : Tracks s s :=
  ⟨[], rfl, fun _ _ => (BitVec.add_zero _).symm, rfl⟩

theorem Tracks.trans {s t u : Session} (h : Tracks s t) (h' : Tracks t u) : Tracks s u := by
  obtain ⟨new, hhistory, hstats, hstate⟩ := h
  obtain ⟨new', hhistory', hstats', hstate'⟩ := h'
  refine ⟨new' ++ new, ?_, fun c hc => ?_, ?_⟩
  · rw [hhistory', hhistory, List.append_assoc]
  · rw [hstats' c hc, hstats c hc, entered_append, BitVec.add_assoc]
  · rw [hstate', hstate, List.findSome?_append]
    cases new'.findSome? SessionObs.login? <;> rfl

theorem Tracks.reported {s t : Session} (h : Tracks s t) (hs : s.Reported) : t.Reported := by
  obtain ⟨new, hhistory, hstats, hstate⟩ := h
  refine ⟨fun c hc => ?_, ?_⟩
  · rw [hstats c hc, hs.counter c hc, hhistory, entered_append]
  · rw [hstate, hs.state, hhistory, lastLogin, lastLogin, List.findSome?_append]
    cases new.findSome? SessionObs.login? <;> rfl

/-- The counters of a step are those of what it adds. -/
theorem tracks_enter {s t : Session} (counters : List SessionCounter) (new : List SessionObs)
    (hhistory : t.history = new ++ s.history) (hstats : t.stats = (s.enter counters).stats)
    (hcount : ∀ c, c.ofHistory = true →
      counters.count c = (new.flatMap SessionObs.counters).count c)
    (hstate : (t.streamState, t.dataState) =
      (new.findSome? SessionObs.login?).getD (s.streamState, s.dataState)) : Tracks s t := by
  refine ⟨new, hhistory, fun c hc => ?_, hstate⟩
  rw [hstats, enter_stats, hcount c hc, entered]

theorem tracks_bump (s : Session) {counter : SessionCounter} (h : counter.ofHistory = false) :
    Tracks s (s.bump counter) := by
  refine tracks_enter [counter] [] rfl rfl (fun c hc => ?_) rfl
  refine List.count_eq_zero_of_not_mem fun hmem => ?_
  rw [List.mem_singleton.mp hmem, h] at hc
  cases hc

theorem send_tracks (ok : Bool) (message : Message) (token : Token) (s : Session) :
    Tracks s (s.send ok message token).2 := by
  unfold Session.send Session.submit
  split
  · exact .refl s
  · split
    · exact .refl s
    · split
      · exact tracks_enter [.rfaMsgsSent] [.item message token] rfl rfl (fun _ _ => rfl) rfl
      · exact .refl s

theorem sendDirectoryResponse_tracks (calls : LoginCalls) (s : Session) :
    Tracks s (s.sendDirectoryResponse calls).2 := by
  have hvalidated : Tracks s (s.bump .mmtDirectoryValidated) := tracks_bump s rfl
  unfold Session.sendDirectoryResponse Session.submit
  dsimp only
  split
  · exact .refl s
  · split
    · exact tracks_bump s rfl
    · split
      · exact hvalidated
      · split
        · exact hvalidated
        · cases calls.submit with
          | false => exact hvalidated
          | true =>
            apply hvalidated.trans
            exact tracks_enter [.rfaMsgsSent, .mmtDirectorySent] [.directory] rfl rfl
              (fun _ _ => rfl) rfl

theorem resetToken_tracks (calls : LoginCalls) (entry : (Text × Nat) × Nat)
    (s : Session × Streams) : Tracks s.1 (resetToken calls entry s).2.1 := by
  unfold resetToken
  split
  · exact .refl s.1
  · split
    · exact .refl s.1
    · split
      · exact .refl s.1
      · split
        · exact .refl s.1
        · exact tracks_bump s.1 rfl

theorem unmute_tracks (calls : LoginCalls) (s : Session × Streams) :
    Tracks s.1 (unmute calls s).2.1 := by
  have hreset : Tracks s.1 (resetTokens calls s).2.1 := by
    unfold resetTokens
    split
    · exact .refl s.1
    · exact Faults.forEach_rel (fun s t : Session × Streams => Tracks s.1 t.1)
        (fun s => .refl s.1) (fun _ _ _ h h' => h.trans h') (resetToken_tracks calls) _ s
  unfold unmute
  split <;> rename_i heq <;> rw [heq] at hreset <;> exact hreset

theorem onLoginSuccess_tracks (calls : LoginCalls) (s : Session × Streams) :
    Tracks (s.1.bump .mmtLoginSuccessReceived) (onLoginSuccess calls s).2.1 := by
  have hdirectory := sendDirectoryResponse_tracks calls (s.1.bump .mmtLoginSuccessReceived)
  unfold onLoginSuccess
  split <;> rename_i heq <;> rw [heq] at hdirectory
  · exact hdirectory
  · exact hdirectory
  · exact hdirectory.trans (unmute_tracks calls _)

/-- A login response is counted twice: as one, and for its states. -/
theorem recordLogin_tracks (streamState : StreamState) (dataState : DataState) (s : Session) :
    Tracks s (((s.bump .mmtLoginResponseReceived).recordLogin streamState dataState).bump
      (loginCounter streamState dataState)) :=
  tracks_enter [.mmtLoginResponseReceived, loginCounter streamState dataState]
    [.login streamState dataState] rfl rfl (fun _ _ => rfl) rfl

theorem onLoginResponse_tracks (streamState : StreamState) (dataState : DataState)
    (calls : LoginCalls) (s : Session × Streams) :
    Tracks s.1 (onLoginResponse streamState dataState calls s).2.1 := by
  apply (recordLogin_tracks streamState dataState s.1).trans
  unfold onLoginResponse
  cases streamState with
  | «open» =>
    cases dataState with
    | ok => exact onLoginSuccess_tracks calls _
    | suspect | unspecified => exact .refl _
  | closed | unspecified | nonStreaming | closedRecover | redirected => exact .refl _

theorem processEvent_tracks (event : RfaEvent) (s : Session × Streams) :
    Tracks s.1 (processEvent event s).2.1 := by
  have hreceived : Tracks s.1 (s.1.bump .rfaEventsReceived) := tracks_bump s.1 rfl
  have hitem : Tracks s.1 ((s.1.bump .rfaEventsReceived).bump .ommItemEventsReceived) :=
    hreceived.trans (tracks_bump _ rfl)
  have hresponse := hitem.trans (@tracks_bump _ .responseMsgsReceived rfl)
  cases event with
  | loginResponse streamState dataState calls =>
    exact hresponse.trans (onLoginResponse_tracks streamState dataState calls
      (((s.1.bump .rfaEventsReceived).bump .ommItemEventsReceived).bump
        .responseMsgsReceived, s.2))
  | otherResponse => exact hresponse.trans (tracks_bump _ rfl)
  | otherItemEvent => exact hitem.trans (tracks_bump _ rfl)
  | ommCmdError | otherEvent => exact hreceived.trans (tracks_bump _ rfl)

/-! ## Providers -/

/-- What an event or a message does not take from a session. -/
structure SessionInvariant (P : Session → Prop) : Prop where
  event : ∀ e s, P s.1 → P (Psych.processEvent e s).2.1
  send : ∀ ok message token s, P s → P (s.send ok message token).2

namespace SessionInvariant

variable {P : Session → Prop} {platform : Platform} {config : Config}

theorem processEvent (h : SessionInvariant P) (e : Nat × RfaEvent) {p : Provider}
    (hp : ∀ s ∈ p.sessions, P s) : ∀ s ∈ (p.processEvent e).2.sessions, P s := by
  unfold Provider.processEvent
  split
  · exact hp
  · rename_i session hsession
    exact forall_mem_set hp _ (h.event e.2 (session, p.streams)
      (hp session (List.mem_of_getElem? hsession)))

theorem processEvents (h : SessionInvariant P) (events : List (Nat × RfaEvent)) {p : Provider}
    (hp : ∀ s ∈ p.sessions, P s) : ∀ s ∈ (p.processEvents events).2.sessions, P s :=
  Faults.forEach_invariant (fun p : Provider => ∀ s ∈ p.sessions, P s)
    (fun e _ _ hp => h.processEvent e hp) hp

theorem sendOn (h : SessionInvariant P) (stream : Nat) (message : Message)
    (call : Nat → SessionCall) (i : Nat) {p : Provider} (hp : ∀ s ∈ p.sessions, P s) :
    ∀ s ∈ (p.sendOn stream message call i).2.sessions, P s := by
  have hevents := h.processEvents (call i).events hp
  unfold Provider.sendOn
  split <;> rename_i heq <;> rw [heq] at hevents
  · exact hevents
  · unfold Provider.giveTo
    split
    · rename_i session token hsession _
      exact forall_mem_set hevents i (h.send _ message token session
        (hevents session (List.mem_of_getElem? hsession)))
    · exact hevents

theorem sendMessage (h : SessionInvariant P) (stream : Nat) (message : Message)
    (call : Nat → SessionCall) {p : Provider} (hp : ∀ s ∈ p.sessions, P s) :
    ∀ s ∈ (p.send stream message call).2.sessions, P s := by
  have hloop := Faults.forEach_invariant (fun p : Provider => ∀ s ∈ p.sessions, P s)
    (l := List.range p.sessions.length) (fun i _ _ hp => h.sendOn stream message call i hp) hp
  unfold Provider.send
  split <;> rename_i heq <;> rw [heq] at hloop <;> exact hloop

theorem sendRefresh (h : SessionInvariant P) (resource : Resource) (table : Table)
    (calls : Nat → RowCalls) {p : Provider} (hp : ∀ s ∈ p.sessions, P s) :
    ∀ s ∈ (sendRefresh config resource table calls p).2.provider.sessions, P s := by
  refine Faults.forEach_invariant (fun s : Publish => ∀ t ∈ s.provider.sessions, P t)
    (fun row _ s hs => ?_) hp
  rcases sendRow_cases config resource table calls row s with
    ⟨_, heq⟩ | ⟨_, _, heq⟩ | ⟨_, _, e, _, heq⟩ | ⟨_, _, i, message, _, hsent⟩
  · rw [heq]
    exact hs
  · rw [heq]
    exact hs
  · rw [heq]
    exact hs
  · rw [hsent.result]
    exact h.sendMessage i message _ hs

theorem handleMessage (h : SessionInvariant P) (message : Nat × Report) {q : Query}
    (hq : ∀ s ∈ q.state.provider.sessions, P s) :
    ∀ s ∈ (handleMessage platform config message q).2.state.provider.sessions, P s := by
  have hrefresh := @SessionInvariant.sendRefresh P config h
    (q.state.connections message.1).resource (q.verdict platform config message).2.table
    message.2.calls q.state.provider hq
  cases @handleMessage_cases platform config message q with
  | faulted _ _ _ _ hprovider _ => exact hprovider ▸ hq
  | rejected _ _ _ hprovider _ => exact hprovider ▸ hq
  | undefined _ _ _ _ hprovider _ => exact hprovider ▸ hrefresh
  | accepted _ _ _ _ _ hprovider _ => exact hprovider ▸ hrefresh

/-- What events and messages leave to every session, a run leaves to it. -/
theorem feed (h : SessionInvariant P) (platform : Platform) (config : Config) :
    FeedInvariant platform config fun _ p => ∀ s ∈ p.provider.sessions, P s where
  quiet _ _ hquiet hp := by
    rw [hquiet.provider]
    exact hp
  message message _ hq := h.handleMessage message hq
  caught _ hp := hp
  deliver events _ hp := h.processEvents events hp

end SessionInvariant

/-! ## Runs -/

theorem reported_invariant : SessionInvariant Session.Reported where
  event e s h := (processEvent_tracks e s).reported h
  send ok message token s h := (send_tracks ok message token s).reported h

theorem created_reported (i : Nat) : (Session.created i true fun _ => 0).Reported :=
  ⟨fun _ _ => rfl, rfl⟩

/-- Whatever has come before, requests about the sessions are answered with what the sessions have
done. -/
theorem sessions_reported {platform : Platform} {config : Config} {sessions : Nat} {feed : Feed}
    (hfresh : feed.state.Fresh config sessions) (inputs : List FeedInput)
    {requests : List (TableRequest SessionRow)}
    (hrequests : ∀ request ∈ requests, ∀ row ∈ request.row,
      row.session ∈ (feed.run platform config inputs).2.state.provider.sessions) :
    ∃ answers, psychSessionPerformanceTable.handler true requests = .ok answers ∧
      List.Forall₂ AnswersHistory requests answers := by
  have hstart : ∀ s ∈ feed.state.provider.sessions, s.Reported := by
    rw [hfresh.provider]
    intro s hs
    obtain ⟨i, _, rfl⟩ := List.mem_map.mp hs
    exact created_reported i
  have hrun := run_invariant (reported_invariant.feed platform config) inputs hstart
  obtain ⟨answers, hok, _⟩ := psychSessionPerformanceTable_answers requests
  refine ⟨answers, hok, ?_⟩
  have hanswered := (List.forall₂_and_left _ _).mpr ⟨hrequests, Faults.mapM_ok_iff.mp hok⟩
  refine hanswered.imp fun request answer ⟨hsession, hanswer⟩ => ?_
  intro row hrow colnum hcolnum value hvalue
  have hcolumn := (hrun _ (hsession row hrow)).column hvalue
  obtain ⟨requestRow, requestColnum⟩ := request
  cases hrow
  cases hcolnum
  exact Except.ok.inj (hanswer.symm.trans hcolumn)

/-- The feed after a login response. -/
def loggedInFeed : Feed :=
  (sampleFeed.run boostPlatform sampleConfig
    [.events [(0, .loginResponse .open .ok {})]]).2

def loggedInRequests : List (TableRequest SessionRow) :=
  loggedInFeed.state.provider.sessions.map fun s => ⟨some ⟨s, sampleSession, 0⟩, some 23⟩

/-- The column for directories after a login. -/
theorem sample_sessions_reported :
    loggedInFeed.state.provider.sessions.map Session.history = [[.directory, .login .open .ok]] ∧
    ∃ answers, psychSessionPerformanceTable.handler true loggedInRequests = .ok answers ∧
      List.Forall₂ AnswersHistory loggedInRequests answers := by
  refine ⟨rfl, @sessions_reported boostPlatform sampleConfig 1 sampleFeed sample_fresh
    [.events [(0, .loginResponse .open .ok {})]] loggedInRequests ?_⟩
  intro request hmem row hrow
  obtain ⟨s, hs, rfl⟩ := List.mem_map.mp hmem
  cases hrow
  exact hs

end Psych
