import Psych.Library.Runs
import Psych.Rfa.SessionFacts

/-!
# The gate of a session

A session may submit item messages only while it is unmuted. Two properties are asked of
the gate in every state of every run of events and sends.

* The directory of the current login comes first (`DirectoryFirst`). `OnLoginSuccess`
  does not look at the result of `SendDirectoryResponse`, and an exception of a later
  login leaves the gate as an earlier one set it: `directoryFirst_iff` gives the login
  successes that break the order (`directoryInTime`).
* The gate follows the recorded login state (`MuteFollowsLogin`). A stream state other
  than open and closed is recorded without moving the gate:
  `muteFollowsLogin_iff_guarded` gives the responses that break the rule.
-/

namespace Psych

/-! ## Runs of a session -/

/-- What happens to a session: an event, with the item streams of the provider at that
time, or an item message to send. -/
inductive SessionInput where
  | event (event : RfaEvent) (streams : Streams)
  | send (ok : Bool) (message : Message) (token : Token)

def Session.step (s : Session) : SessionInput → Session
  | .event event streams => (processEvent event (s, streams)).2.1
  | .send ok message token => (s.send ok message token).2

/-- What an event that is no login response does: it counts. -/
theorem processEvent_other {event : RfaEvent} (h : ∀ streamState dataState calls,
    event ≠ .loginResponse streamState dataState calls) (s : Session × Streams) :
    SameLogin s.1 (processEvent event s).2.1 := by
  have hreceived := sameLogin_bump s.1 .rfaEventsReceived
  have hitem := hreceived.trans (sameLogin_bump _ .ommItemEventsReceived)
  cases event with
  | loginResponse streamState dataState calls => exact absurd rfl (h _ _ _)
  | otherResponse =>
    exact (hitem.trans (sameLogin_bump _ .responseMsgsReceived)).trans (sameLogin_bump _ _)
  | otherItemEvent => exact hitem.trans (sameLogin_bump _ _)
  | ommCmdError => exact hreceived.trans (sameLogin_bump _ _)
  | otherEvent => exact hreceived.trans (sameLogin_bump _ _)

/-- What a login response leaves of a session `s` and its item streams: its states are
recorded, and the gate is where the state pair puts it. -/
structure LoginEffect (streamState : StreamState) (dataState : DataState) (calls : LoginCalls)
    (s : Session) (streams : Streams) (t : Session) : Prop where
  stream : t.streamState = streamState
  data : t.dataState = dataState
  success : streamState = .open → dataState = .ok →
    t.history = (if calls.directorySent s = true then [.directory] else []) ++
      .login .open .ok :: s.history ∧
    ((unmutes calls s streams ∧ t.isMuted = false) ∨
      (¬ unmutes calls s streams ∧ t.isMuted = s.isMuted))
  other : ¬ (streamState = .open ∧ dataState = .ok) →
    t.history = .login streamState dataState :: s.history
  closes : streamState = .closed ∨ (streamState = .open ∧ dataState = .suspect) →
    t.isMuted = true
  discarded : streamState ≠ .closed → (streamState = .open → dataState = .unspecified) →
    t.isMuted = s.isMuted

/-- Counting does not matter to the effect. -/
theorem LoginEffect.of_bump {streamState : StreamState} {dataState : DataState}
    {calls : LoginCalls} {s t : Session} {streams : Streams} {counter : SessionCounter}
    (h : LoginEffect streamState dataState calls (s.bump counter) streams t) :
    LoginEffect streamState dataState calls s streams t :=
  ⟨h.stream, h.data, h.success, h.other, h.closes, h.discarded⟩

/-- Only a login success opens the gate. -/
theorem LoginEffect.isMuted_cases {streamState : StreamState} {dataState : DataState}
    {calls : LoginCalls} {s t : Session} {streams : Streams}
    (h : LoginEffect streamState dataState calls s streams t)
    (hno : ¬ (streamState = .open ∧ dataState = .ok)) :
    t.isMuted = true ∨ t.isMuted = s.isMuted := by
  by_cases hc : streamState = .closed ∨ (streamState = .open ∧ dataState = .suspect)
  · exact Or.inl (h.closes hc)
  · refine Or.inr (h.discarded (fun he => hc (Or.inl he)) fun he => ?_)
    cases dataState with
    | ok => exact absurd ⟨he, rfl⟩ hno
    | suspect => exact absurd (Or.inr ⟨he, rfl⟩) hc
    | unspecified => rfl

theorem loginEffect_success (calls : LoginCalls) (s : Session × Streams) :
    LoginEffect .open .ok calls s.1 s.2
      (onLoginSuccess calls (s.1.recordLogin .open .ok, s.2)).2.1 := by
  obtain ⟨t, ht, hrec, hmute⟩ := onLoginSuccess_spec calls (s.1.recordLogin .open .ok, s.2)
  have hsent : calls.directorySent (s.1.recordLogin .open .ok) = calls.directorySent s.1 := rfl
  have hhistory : t.history = .login .open .ok :: s.1.history := ht.history
  have hstream : t.streamState = .open := ht.streamState
  have hdata : t.dataState = .ok := ht.dataState
  simp only [hsent] at hrec
  refine ⟨?_, ?_, fun _ _ => ⟨?_, hmute⟩, fun h => absurd ⟨rfl, rfl⟩ h, by simp, by simp⟩
  · rw [hrec.streamState]
    split <;> exact hstream
  · rw [hrec.dataState]
    split <;> exact hdata
  · rw [hrec.history]
    split
    · exact congrArg (SessionObs.directory :: ·) hhistory
    · exact hhistory

theorem loginEffect_closed {streamState : StreamState} {dataState : DataState}
    (h : streamState = .closed ∨ (streamState = .open ∧ dataState = .suspect))
    (calls : LoginCalls) (s : Session) (streams : Streams) {t : Session}
    (ht : SameRecord (s.recordLogin streamState dataState) t) (hm : t.isMuted = true) :
    LoginEffect streamState dataState calls s streams t := by
  refine ⟨ht.streamState, ht.dataState, ?_, fun _ => ht.history, fun _ => hm, ?_⟩
  · rintro rfl rfl
    simp at h
  · intro hne hun
    rcases h with h | ⟨ho, hs⟩
    · exact absurd h hne
    · rw [hun ho] at hs
      cases hs

theorem loginEffect_discarded {streamState : StreamState} {dataState : DataState}
    (hne : streamState ≠ .closed) (hun : streamState = .open → dataState = .unspecified)
    (calls : LoginCalls) (s : Session) (streams : Streams) {t : Session}
    (ht : SameLogin (s.recordLogin streamState dataState) t) :
    LoginEffect streamState dataState calls s streams t := by
  refine ⟨ht.streamState, ht.dataState, ?_, fun _ => ht.history, ?_, fun _ _ => ht.isMuted⟩
  · rintro ho rfl
    cases hun ho
  · rintro (h | ⟨ho, rfl⟩)
    · exact absurd h hne
    · cases hun ho

theorem onLoginResponse_effect (streamState : StreamState) (dataState : DataState)
    (calls : LoginCalls) (s : Session × Streams) :
    LoginEffect streamState dataState calls s.1 s.2
      (onLoginResponse streamState dataState calls s).2.1 := by
  cases streamState with
  | «open» =>
    cases dataState with
    | ok => exact (loginEffect_success calls (s.1.bump .mmtLoginResponseReceived, s.2)).of_bump
    | suspect =>
      exact loginEffect_closed (Or.inr ⟨rfl, rfl⟩) calls s.1 s.2 ⟨rfl, rfl, rfl, rfl, rfl⟩ rfl
    | unspecified =>
      exact loginEffect_discarded (by simp) (by simp) calls s.1 s.2 ⟨⟨rfl, rfl, rfl, rfl, rfl⟩, rfl⟩
  | closed => exact loginEffect_closed (Or.inl rfl) calls s.1 s.2 ⟨rfl, rfl, rfl, rfl, rfl⟩ rfl
  | unspecified | nonStreaming | closedRecover | redirected =>
    exact loginEffect_discarded (by simp) (by simp) calls s.1 s.2 ⟨⟨rfl, rfl, rfl, rfl, rfl⟩, rfl⟩

/-- `processEvent` counts a login response and hands it to `OnRespMsg`. -/
theorem processEvent_login (streamState : StreamState) (dataState : DataState)
    (calls : LoginCalls) (s : Session × Streams) :
    LoginEffect streamState dataState calls s.1 s.2
      (processEvent (.loginResponse streamState dataState calls) s).2.1 := by
  have heffect := onLoginResponse_effect streamState dataState calls
    (((s.1.bump .rfaEventsReceived).bump .ommItemEventsReceived).bump .responseMsgsReceived, s.2)
  exact heffect.of_bump.of_bump.of_bump

/-- A send either leaves the session as it is, or submits the message of an unmuted
session. -/
theorem send_cases (ok : Bool) (message : Message) (token : Token) (s : Session) :
    (s.send ok message token).2 = s ∨
    (s.isMuted = false ∧
      SameLogin (s.record (.item message token)) (s.send ok message token).2) := by
  unfold Session.send Session.submit
  cases hm : s.isMuted with
  | true => exact Or.inl rfl
  | false =>
    cases homm : s.ommProvider with
    | false => exact Or.inl rfl
    | true =>
      cases ok with
      | false => exact Or.inl rfl
      | true => exact Or.inr ⟨rfl, ⟨rfl, rfl, rfl, rfl, rfl⟩, rfl⟩

/-! ## The directory first -/

/-- A directory was submitted since the last login success; the newest entry comes
first. -/
def directorySinceLogin : List SessionObs → Bool
  | [] => false
  | .directory :: _ => true
  | .login .open .ok :: _ => false
  | _ :: history => directorySinceLogin history

/-- Every item message was submitted after the directory of the login it belongs to. -/
def itemsAfterDirectory : List SessionObs → Prop
  | [] => True
  | .item _ _ :: history => directorySinceLogin history = true ∧ itemsAfterDirectory history
  | _ :: history => itemsAfterDirectory history

structure DirectoryFirst (s : Session) : Prop where
  gate : s.isMuted = false → directorySinceLogin s.history = true
  items : itemsAfterDirectory s.history

/-- The directory is sent with a login success, or the session is muted and stays so
because another call than `validateMsg` throws. -/
def directoryInTime (s : Session) : SessionInput → Prop
  | .event (.loginResponse .open .ok calls) streams =>
    calls.directorySent s = true ∨
      (s.isMuted = true ∧ ¬ (calls.validationThrows = true ∧ tokensReset calls s streams))
  | _ => True

theorem directorySinceLogin_login {streamState : StreamState} {dataState : DataState}
    (h : ¬ (streamState = .open ∧ dataState = .ok)) (history : List SessionObs) :
    directorySinceLogin (.login streamState dataState :: history) =
      directorySinceLogin history := by
  cases streamState <;> cases dataState <;> first | rfl | exact absurd ⟨rfl, rfl⟩ h

theorem directoryFirst_congr {s s' : Session} (hm : s'.isMuted = s.isMuted)
    (hh : s'.history = s.history) : DirectoryFirst s' ↔ DirectoryFirst s := by
  constructor
  · rintro ⟨hg, hi⟩
    exact ⟨fun h => hh ▸ hg (hm.trans h), hh ▸ hi⟩
  · rintro ⟨hg, hi⟩
    exact ⟨fun h => hh ▸ hg (hm.symm.trans h), hh ▸ hi⟩

/-- A login response other than (Open, Ok) keeps the order: it opens no gate. -/
theorem directoryFirst_otherLogin {streamState : StreamState} {dataState : DataState}
    (hno : ¬ (streamState = .open ∧ dataState = .ok)) {s t : Session}
    (hhistory : t.history = .login streamState dataState :: s.history)
    (hmute : t.isMuted = true ∨ t.isMuted = s.isMuted) (h : DirectoryFirst s) :
    DirectoryFirst t := by
  constructor
  · intro hm
    rw [hhistory, directorySinceLogin_login hno]
    apply h.gate
    rcases hmute with ht | ht
    · rw [ht] at hm
      cases hm
    · exact ht ▸ hm
  · rw [hhistory]
    exact h.items

/-- A login success keeps the order exactly when its directory is in time. -/
theorem directoryFirst_loginSuccess {calls : LoginCalls} {s t : Session} {streams : Streams}
    (hhistory : t.history = (if calls.directorySent s = true then [.directory] else []) ++
      .login .open .ok :: s.history)
    (hmute : (unmutes calls s streams ∧ t.isMuted = false) ∨
      (¬ unmutes calls s streams ∧ t.isMuted = s.isMuted)) (h : DirectoryFirst s) :
    DirectoryFirst t ↔ directoryInTime s (.event (.loginResponse .open .ok calls) streams) := by
  unfold unmutes at hmute
  unfold directoryInTime
  cases hsent : calls.directorySent s with
  | true =>
    rw [hsent, if_pos rfl] at hhistory
    exact iff_of_true ⟨fun _ => by rw [hhistory]; rfl, by rw [hhistory]; exact h.items⟩
      (Or.inl hsent)
  | false =>
    simp only [hsent, Bool.false_eq_true, if_false, List.nil_append, false_or] at hhistory hmute ⊢
    have hnone : directorySinceLogin t.history = false := by rw [hhistory]; rfl
    constructor
    · intro ht
      have hm : t.isMuted = true := by
        cases hm : t.isMuted with
        | true => rfl
        | false => rw [ht.gate hm] at hnone; cases hnone
      rcases hmute with ⟨_, hf⟩ | ⟨hno, hsame⟩
      · rw [hf] at hm
        cases hm
      · exact ⟨hsame ▸ hm, hno⟩
    · rintro ⟨hm, hno⟩
      rcases hmute with ⟨hyes, _⟩ | ⟨_, hsame⟩
      · exact absurd hyes hno
      · refine ⟨fun hf => ?_, by rw [hhistory]; exact h.items⟩
        rw [hsame, hm] at hf
        cases hf

/-- One step keeps the order exactly when the directory of a login success is in time. -/
theorem directoryFirst_step (s : Session) (input : SessionInput) (h : DirectoryFirst s) :
    DirectoryFirst (s.step input) ↔ directoryInTime s input := by
  cases input with
  | send ok message token =>
    simp only [directoryInTime, iff_true, Session.step]
    rcases send_cases ok message token s with heq | ⟨hm, hsame⟩
    · rw [heq]
      exact h
    · rw [directoryFirst_congr hsame.isMuted hsame.history]
      exact ⟨fun hf => h.gate hf, h.gate hm, h.items⟩
  | event event streams =>
    by_cases hlogin : ∃ streamState dataState calls,
        event = .loginResponse streamState dataState calls
    · obtain ⟨streamState, dataState, calls, rfl⟩ := hlogin
      have heffect := processEvent_login streamState dataState calls (s, streams)
      by_cases hok : streamState = .open ∧ dataState = .ok
      · obtain ⟨rfl, rfl⟩ := hok
        obtain ⟨hhistory, hmute⟩ := heffect.success rfl rfl
        exact directoryFirst_loginSuccess hhistory hmute h
      · have htrue : directoryInTime s (.event (.loginResponse streamState dataState calls)
            streams) := by
          unfold directoryInTime
          split
          · rename_i heq
            cases heq
            exact absurd ⟨rfl, rfl⟩ hok
          · trivial
        refine iff_of_true (directoryFirst_otherLogin hok (heffect.other hok) ?_ h) htrue
        exact heffect.isMuted_cases hok
    · have hno : ∀ streamState dataState calls,
          event ≠ .loginResponse streamState dataState calls :=
        fun a b c he => hlogin ⟨a, b, c, he⟩
      have hsame := processEvent_other hno (s, streams)
      have htrue : directoryInTime s (.event event streams) := by
        unfold directoryInTime
        cases event <;> first | trivial | exact absurd rfl (hno _ _ _)
      exact iff_of_true ((directoryFirst_congr hsame.isMuted hsame.history).mpr h) htrue

/-- In a run of a session every item message follows the directory of its login, and no
state is open without one, exactly when the directory of each login success is in time. -/
theorem directoryFirst_iff (instanceId : Nat) (ommProvider : Bool)
    (stats : SessionCounter → BitVec 32) (inputs : List SessionInput) :
    (∀ s ∈ inputs.scanl Session.step (.created instanceId ommProvider stats),
      DirectoryFirst s) ↔
    Runs.Guarded Session.step directoryInTime (.created instanceId ommProvider stats) inputs := by
  have hcreated : DirectoryFirst (.created instanceId ommProvider stats) :=
    ⟨by simp [Session.created], trivial⟩
  exact Runs.forall_scanl_iff_guarded directoryFirst_step hcreated inputs

/-- `validateMsg` throws, so no directory is sent, and the next item message goes out. -/
theorem unvalidated_directory_opens_gate :
    ¬ ∀ s ∈ [SessionInput.event (.loginResponse .open .ok { validateMsg := .throws }) {},
        .send true ⟨0, [], [], [], none⟩ (some 0)].scanl Session.step (.created 0 true fun _ => 0),
      DirectoryFirst s := by
  intro h
  have hlast := h (Session.step (Session.step (.created 0 true fun _ => 0)
    (.event (.loginResponse .open .ok { validateMsg := .throws }) {}))
    (.send true ⟨0, [], [], [], none⟩ (some 0))) (by simp)
  exact absurd hlast.items.1 (by decide)

/-! ## The gate and the recorded login state -/

/-- The last login response that grants or withdraws the permission to publish withdrew
it; (Open, Unspecified) does neither. -/
def awaitsLogin : List SessionObs → Bool
  | [] => false
  | .login .open .ok :: _ => false
  | .login .open .unspecified :: history => awaitsLogin history
  | .login _ _ :: _ => true
  | _ :: history => awaitsLogin history

structure MuteFollowsLogin (s : Session) : Prop where
  recorded : s.isMuted = false → s.streamState = .open ∧ s.dataState ≠ .suspect
  silent : awaitsLogin s.history = true → ∀ ok message token,
    s.send ok message token = (.ok (), s)

/-- A response with a stream state other than open and closed finds the session muted. -/
def mutedInTime (s : Session) : SessionInput → Prop
  | .event (.loginResponse streamState _ _) _ =>
    streamState = .open ∨ streamState = .closed ∨ s.isMuted = true
  | _ => True

/-- A session submits nothing whatever it is given to send exactly when it is muted. -/
theorem send_silent_iff (s : Session) :
    (∀ ok message token, s.send ok message token = (.ok (), s)) ↔ s.isMuted = true := by
  constructor
  · intro h
    have hfail := congrArg Prod.fst (h false ⟨0, [], [], [], none⟩ none)
    unfold Session.send Session.submit at hfail
    cases hm : s.isMuted with
    | true => rfl
    | false => cases homm : s.ommProvider <;> simp [hm, homm] at hfail
  · intro h ok message token
    simp [Session.send, h]

theorem muteFollowsLogin_iff (s : Session) :
    MuteFollowsLogin s ↔
      (s.isMuted = false → s.streamState = .open ∧ s.dataState ≠ .suspect) ∧
      (awaitsLogin s.history = true → s.isMuted = true) := by
  constructor
  · rintro ⟨hr, hs⟩
    exact ⟨hr, fun h => (send_silent_iff s).mp (hs h)⟩
  · rintro ⟨hr, hs⟩
    exact ⟨hr, fun h => (send_silent_iff s).mpr (hs h)⟩

theorem muteFollowsLogin_of_muted {s : Session} (h : s.isMuted = true) : MuteFollowsLogin s := by
  rw [muteFollowsLogin_iff, h]
  simp

theorem muteFollowsLogin_congr {s s' : Session} (h : SameLogin s s') :
    MuteFollowsLogin s' ↔ MuteFollowsLogin s := by
  rw [muteFollowsLogin_iff, muteFollowsLogin_iff, h.isMuted, h.streamState, h.dataState, h.history]

/-- A login response keeps the gate with the recorded state exactly when it is one that
moves the gate or finds it closed. -/
theorem muteFollowsLogin_login {streamState : StreamState} {dataState : DataState}
    {calls : LoginCalls} {s t : Session} {streams : Streams}
    (heffect : LoginEffect streamState dataState calls s streams t) (h : MuteFollowsLogin s) :
    MuteFollowsLogin t ↔ streamState = .open ∨ streamState = .closed ∨ s.isMuted = true := by
  by_cases hclosed : streamState = .closed
  · exact iff_of_true (muteFollowsLogin_of_muted (heffect.closes (Or.inl hclosed)))
      (Or.inr (Or.inl hclosed))
  by_cases hopen : streamState = .open
  · refine iff_of_true ?_ (Or.inl hopen)
    cases dataState with
    | suspect => exact muteFollowsLogin_of_muted (heffect.closes (Or.inr ⟨hopen, rfl⟩))
    | ok =>
      obtain ⟨hhistory, _⟩ := heffect.success hopen rfl
      rw [muteFollowsLogin_iff, heffect.stream, heffect.data, hhistory]
      refine ⟨fun _ => ⟨hopen, by simp⟩, fun hawaits => ?_⟩
      cases hsent : calls.directorySent s <;> simp [hsent, awaitsLogin] at hawaits
    | unspecified =>
      obtain ⟨_, hsilent⟩ := (muteFollowsLogin_iff s).mp h
      have hhistory := heffect.other (by simp)
      have hmute := heffect.discarded hclosed fun _ => rfl
      rw [muteFollowsLogin_iff, heffect.stream, heffect.data, hhistory, hmute, hopen]
      exact ⟨fun _ => ⟨rfl, by simp⟩, hsilent⟩
  · -- the response is recorded and counted as discarded, and the gate stays as it was
    have hmute := heffect.discarded hclosed fun ho => absurd ho hopen
    simp only [hopen, hclosed, false_or]
    rw [muteFollowsLogin_iff, heffect.stream, hmute]
    cases hm : s.isMuted with
    | true => simp
    | false => simp [hopen]

theorem muteFollowsLogin_step (s : Session) (input : SessionInput) (h : MuteFollowsLogin s) :
    MuteFollowsLogin (s.step input) ↔ mutedInTime s input := by
  cases input with
  | send ok message token =>
    refine iff_of_true ?_ trivial
    change MuteFollowsLogin (s.send ok message token).2
    rcases send_cases ok message token s with heq | ⟨_, hsame⟩
    · rw [heq]
      exact h
    · rw [muteFollowsLogin_congr hsame, muteFollowsLogin_iff]
      exact (muteFollowsLogin_iff s).mp h
  | event event streams =>
    cases event with
    | loginResponse streamState dataState calls =>
      exact muteFollowsLogin_login
        (processEvent_login streamState dataState calls (s, streams)) h
    | otherResponse | otherItemEvent | ommCmdError | otherEvent =>
      refine iff_of_true ?_ trivial
      exact (muteFollowsLogin_congr (processEvent_other (by simp) (s, streams))).mpr h

/-- In a run of a session the gate follows the login state in every state exactly when
each response with a stream state other than open and closed finds the session muted. -/
theorem muteFollowsLogin_iff_guarded (instanceId : Nat) (ommProvider : Bool)
    (stats : SessionCounter → BitVec 32) (inputs : List SessionInput) :
    (∀ s ∈ inputs.scanl Session.step (.created instanceId ommProvider stats),
      MuteFollowsLogin s) ↔
    Runs.Guarded Session.step mutedInTime (.created instanceId ommProvider stats) inputs :=
  Runs.forall_scanl_iff_guarded muteFollowsLogin_step (muteFollowsLogin_of_muted rfl) inputs

/-- The connection closes to be recovered, and the session goes on publishing. -/
theorem closed_recover_leaves_gate_open :
    ¬ ∀ s ∈ [SessionInput.event (.loginResponse .open .ok {}) {},
        .event (.loginResponse .closedRecover .suspect {}) {}].scanl Session.step
          (.created 0 true fun _ => 0),
      MuteFollowsLogin s := by
  intro h
  have hlast := h (Session.step (Session.step (.created 0 true fun _ => 0)
    (.event (.loginResponse .open .ok {}) {}))
    (.event (.loginResponse .closedRecover .suspect {}) {})) (by simp)
  exact absurd (hlast.recorded rfl).1 (by decide)

end Psych
