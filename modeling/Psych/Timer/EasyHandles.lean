import Psych.Query.Ledger
import Psych.Timer.Poller

/-!
# Easy handles

An easy handle is removed from the multi handle where its response is accepted, and nowhere else.
Every request is therefore paid for once: its response is accepted, its handle is closed in the
multi handle, or its handle is still there (`HandleLedger`). The handles are removed in time
exactly where every request has an accepted response (`handles_disciplined_iff`).
-/

namespace Psych

variable {platform : Platform} {config : Config}

/-! ## Requests and answers -/

/-- A request of the connection is made. -/
def Obs.asks (c : Nat) : Obs → Bool
  | .request c' (some _) => c' = c
  | _ => false

/-- A response of the connection is accepted. -/
def Obs.answers (platform : Platform) (config : Config) (c : Nat) : Obs → Bool
  | .done c' transfer connection _ =>
    c' = c && outcome platform config (transfer, connection) = .ok true
  | _ => false

/-- The number of requests of a connection. -/
def asked (c : Nat) (log : List Obs) : Nat := log.countP (Obs.asks c)

/-- The number of accepted responses of a connection. -/
def answered (platform : Platform) (config : Config) (c : Nat) (log : List Obs) : Nat :=
  log.countP (Obs.answers platform config c)

/-- The handle of the connection is in the multi handle. -/
def Multi.held (c : Nat) (multi : Multi) : Nat := if c ∈ multi.attached then 1 else 0

/-- The number of times the handle of the connection was closed in the multi handle. -/
def Multi.dropped (c : Nat) (multi : Multi) : Nat := multi.ops.count (.close c true)

/-- What became of the handles that were added, and of the messages of others. -/
structure HandleLedger (platform : Platform) (config : Config) (p : State × Multi) : Prop where
  balance : ∀ c, asked c p.1.log =
    answered platform config c p.1.log + p.2.dropped c + p.2.held c
  foreign : ∀ c counted, .done c counted false ∈ p.2.ops →
    .close c true ∈ p.2.ops ∨ (c ∈ p.2.attached ∧ c ∉ p.2.running)

theorem HandleLedger.congr {p : State × Multi} {state : State}
    (h : HandleLedger platform config p) (hasked : ∀ c, asked c state.log = asked c p.1.log)
    (hanswered : ∀ c, answered platform config c state.log = answered platform config c p.1.log) :
    HandleLedger platform config (state, p.2) where
  balance c := by
    rw [hasked, hanswered]
    exact h.balance c
  foreign := h.foreign

theorem HandleLedger.observe {p : State × Multi} (h : HandleLedger platform config p) {o : Obs}
    (hasks : ∀ c, o.asks c = false) (hanswers : ∀ c, o.answers platform config c = false) :
    HandleLedger platform config (p.1.observe o, p.2) :=
  h.congr (fun c => List.countP_cons_of_neg (by rw [hasks]; simp))
    (fun c => List.countP_cons_of_neg (by rw [hanswers]; simp))

/-! ## Closing -/

theorem dropped_close (c c' : Nat) (multi : Multi) :
    (multi.close c).dropped c' = multi.dropped c' + if c' = c then multi.held c' else 0 := by
  unfold Multi.close Multi.detach Multi.dropped Multi.held
  rw [List.count_cons]
  by_cases hc : c' = c
  · subst hc
    simp
  · have hne : (HandleOp.close c (multi.attached.contains c) == .close c' true) = false := by
      rw [beq_eq_false_iff_ne]
      exact fun heq => hc (HandleOp.close.inj heq).1.symm
    rw [hne, if_neg hc]
    rfl

theorem held_detach (c c' : Nat) (op : HandleOp) (multi : Multi) :
    (multi.detach c op).held c' = if c' = c then 0 else multi.held c' := by
  unfold Multi.held
  by_cases hc : c' = c <;> simp [hc]

/-- What is closed was held before, or is counted as dropped. -/
theorem HandleLedger.close {p : State × Multi} (h : HandleLedger platform config p) (c : Nat) :
    HandleLedger platform config (p.1, p.2.close c) where
  balance c' := by
    have hbalance := h.balance c'
    dsimp only at hbalance ⊢
    rw [dropped_close, Multi.close, held_detach]
    split <;> omega
  foreign c' counted hdone := by
    have hold : .done c' counted false ∈ p.2.ops := by
      simpa [Multi.close, Multi.detach] using hdone
    rcases h.foreign c' counted hold with hclosed | ⟨hattached, hrunning⟩
    · exact Or.inl (List.mem_cons_of_mem _ hclosed)
    · by_cases hc : c' = c
      · subst hc
        left
        unfold Multi.close Multi.detach
        rw [List.contains_iff_mem.mpr hattached]
        exact List.mem_cons_self
      · exact Or.inr ⟨Multi.mem_attached_detach.mpr ⟨hattached, hc⟩,
          fun hmem => hrunning (Multi.mem_running_detach.mp hmem).1⟩

/-! ## The steps of a query -/

theorem prepare_asked (flags : QueryFlags) (t0 : Int) (easyInit : Nat → Bool) (p : State)
    (c c' : Nat) :
    asked c' (prepare platform config flags t0 easyInit p c).log =
      asked c' p.log + if c' = c ∧ easyInit c = true then 1 else 0 := by
  unfold prepare asked
  dsimp only
  cases easyInit c with
  | true =>
    rw [if_pos rfl]
    simp [State.observe, State.setConnection, List.countP_cons, Obs.asks, eq_comm]
  | false =>
    rw [if_neg (by simp)]
    simp [State.observe, State.setConnection, Obs.asks]

theorem prepare_answered (flags : QueryFlags) (t0 : Int) (easyInit : Nat → Bool) (p : State)
    (c c' : Nat) :
    answered platform config c' (prepare platform config flags t0 easyInit p c).log =
      answered platform config c' p.log := by
  unfold prepare answered
  dsimp only
  split <;> simp [State.observe, State.setConnection, Obs.answers]

/-- The handle of a connection is closed before it gets a new one. -/
theorem HandleLedger.prepareOn {p : State × Multi} (hsound : Multi.Sound p)
    (h : HandleLedger platform config p) (flags : QueryFlags) (t0 : Int)
    (easyInit : Nat → Bool) (c : Nat) :
    HandleLedger platform config (prepareOn platform config flags t0 easyInit p c) := by
  obtain ⟨multi, hmulti, hclosed, hfree⟩ : ∃ multi,
      multi = (if (p.1.connections c).handle then p.2.close c else p.2) ∧
      HandleLedger platform config (p.1, multi) ∧ c ∉ multi.attached := by
    refine ⟨_, rfl, ?_⟩
    split
    · exact ⟨h.close c, fun hmem => (Multi.mem_attached_detach.mp hmem).2 rfl⟩
    · rename_i hhandle
      exact ⟨h, fun hmem => hhandle (hsound.held c hmem)⟩
  unfold Psych.prepareOn
  dsimp only
  rw [← hmulti]
  cases hinit : easyInit c with
  | false =>
    rw [if_neg (by simp)]
    refine hclosed.congr (fun c' => ?_) (prepare_answered flags t0 easyInit p.1 c)
    rw [prepare_asked, hinit]
    simp
  | true =>
    rw [if_pos rfl]
    refine ⟨fun c' => ?_, fun c' counted hdone => ?_⟩
    · have hbalance := hclosed.balance c'
      have hheld : (multi.add c).held c' = multi.held c' + if c' = c then 1 else 0 := by
        unfold Multi.held Multi.add
        by_cases hc : c' = c
        · subst hc
          simp [hfree]
        · simp [hc]
      have hdropped : (multi.add c).dropped c' = multi.dropped c' := by
        simp [Multi.dropped, Multi.add]
      dsimp only at hbalance ⊢
      rw [prepare_asked, prepare_answered, hinit, hheld, hdropped]
      simp only [and_true]
      omega
    · have hold : .done c' counted false ∈ multi.ops := by
        simpa [Multi.add] using hdone
      rcases hclosed.foreign c' counted hold with hdropped | ⟨hattached, hrunning⟩
      · exact Or.inl (List.mem_cons_of_mem _ hdropped)
      · refine Or.inr ⟨List.mem_cons_of_mem _ hattached, fun hmem => ?_⟩
        rcases List.mem_cons.mp hmem with rfl | hmem
        · exact hfree hattached
        · exact hrunning hmem

theorem transfers_asked (input : RoundInput) (requests : Nat) (p : State) (c : Nat) :
    asked c (transfers platform input requests p).2.log = asked c p.log ∧
      answered platform config c (transfers platform input requests p).2.log =
        answered platform config c p.log :=
  ⟨transfers_countP (fun _ _ => rfl) input requests p,
    transfers_countP (fun _ _ => rfl) input requests p⟩

theorem answers_doneObs (message : Nat × Report) (q : Query) (c : Nat) :
    (q.doneObs platform config message).answers platform config c =
      (decide (message.1 = c) && decide ((q.verdict platform config message).1 = .ok true)) := by
  rw [verdict_eq_outcome]
  rfl

/-- A message whose response is not accepted leaves the handle. -/
theorem HandleLedger.read {p : State × Multi} {state : State} (hsound : Multi.Sound p)
    (h : HandleLedger platform config p) {pending : List Nat} {c : Nat}
    (hrunning : c ∈ p.2.running) (hasked : ∀ c, asked c state.log = asked c p.1.log)
    (hanswered : ∀ c, answered platform config c state.log = answered platform config c p.1.log) :
    HandleLedger platform config (state, p.2.read pending c) := by
  refine .congr (p := (p.1, p.2.read pending c)) ⟨fun c' => ?_, fun c' counted hdone => ?_⟩ hasked
    hanswered
  · have hdropped : (p.2.read pending c).dropped c' = p.2.dropped c' := by
      simp [Multi.dropped, Multi.read]
    dsimp only
    rw [hdropped]
    exact h.balance c'
  · rcases List.mem_cons.mp hdone with heq | hold
    · obtain rfl := (HandleOp.done.inj heq).1
      exact Or.inr ⟨hsound.running c' hrunning, fun hmem => (Multi.mem_running_read.mp hmem).2 rfl⟩
    · rcases h.foreign c' counted hold with hclosed | ⟨hattached, hnot⟩
      · exact Or.inl (List.mem_cons_of_mem _ hclosed)
      · exact Or.inr ⟨hattached, fun hmem => hnot (Multi.mem_running_read.mp hmem).1⟩

/-- A message whose response is accepted removes the handle. -/
theorem HandleLedger.remove {p : State × Multi} {state : State} (hsound : Multi.Sound p)
    (h : HandleLedger platform config p) {pending : List Nat} {c : Nat}
    (hrunning : c ∈ p.2.running) (hpending : c ∈ pending)
    (hasked : ∀ c, asked c state.log = asked c p.1.log)
    (hanswered : ∀ c', answered platform config c' state.log =
      answered platform config c' p.1.log + if c' = c then 1 else 0) :
    HandleLedger platform config (state, (p.2.read pending c).remove c) where
  balance c' := by
    have hbalance := h.balance c'
    have hattached := hsound.running c hrunning
    have hdropped : ((p.2.read pending c).remove c).dropped c' = p.2.dropped c' := by
      simp [Multi.dropped, Multi.read, Multi.remove, Multi.detach]
    have hheld : c' = c → p.2.held c' = 1 := by
      rintro rfl
      exact if_pos hattached
    have hsame : (p.2.read pending c).held c' = p.2.held c' := rfl
    dsimp only
    rw [hasked, hanswered, hdropped, Multi.remove, held_detach, hsame]
    by_cases hc : c' = c
    · rw [hheld hc] at hbalance
      simp only [if_pos hc]
      omega
    · simp only [if_neg hc]
      exact hbalance
  foreign c' counted hdone := by
    have hold : .done c' counted false ∈ p.2.ops := by
      simpa [Multi.remove, Multi.detach, Multi.read, hpending] using hdone
    rcases h.foreign c' counted hold with hclosed | ⟨hattached, hnot⟩
    · exact Or.inl (List.mem_cons_of_mem _ (List.mem_cons_of_mem _ hclosed))
    · have hne : c' ≠ c := by
        rintro rfl
        exact hnot hrunning
      refine Or.inr ⟨Multi.mem_attached_detach.mpr ⟨hattached, hne⟩, fun hmem => hnot ?_⟩
      exact (Multi.mem_running_read.mp (Multi.mem_running_detach.mp hmem).1).1

theorem HandleLedger.message {message : Nat × Report} {q : Query × Multi}
    (hsound : Multi.Sound (q.1.state, q.2)) (hrunning : message.1 ∈ q.2.running)
    (h : HandleLedger platform config (q.1.state, q.2))
    (halive : (handleMessageOn platform config message q).1 ≠ .error .undefined) :
    HandleLedger platform config ((handleMessageOn platform config message q).2.1.state,
      (handleMessageOn platform config message q).2.2) := by
  have hkept : (q.1.verdict platform config message).1 ≠ .ok true →
      (handleMessage platform config message q.1).2.state.log =
        q.1.doneObs platform config message :: q.1.state.log →
      HandleLedger platform config ((handleMessageOn platform config message q).2.1.state,
        (handleMessageOn platform config message q).2.2) := by
    intro hno hlog
    unfold handleMessageOn
    dsimp only
    rw [if_neg fun hsucceeds => hno hsucceeds.1]
    refine h.read hsound hrunning (fun c => ?_) (fun c => ?_)
    · rw [hlog]
      exact List.countP_cons_of_neg (by simp [Query.doneObs, Obs.asks])
    · rw [hlog]
      apply List.countP_cons_of_neg
      rw [answers_doneObs]
      simp [hno]
  rcases @handleMessage_cases platform config message q.1 with
    ⟨e, verdict, _, hlog⟩ | ⟨verdict, _, hlog⟩ | ⟨_, _, hundefined, _⟩ |
    ⟨verdict, published, hmem, _, hlog, _, _⟩
  · exact hkept (by rw [verdict]; simp) hlog
  · exact hkept (by rw [verdict]; simp) hlog
  · exact absurd hundefined halive
  · unfold handleMessageOn
    dsimp only
    rw [if_pos ⟨verdict, published⟩]
    refine h.remove hsound hrunning hmem (fun c => ?_) (fun c => ?_)
    · rw [hlog]
      simp [asked, Query.refreshObs, Query.doneObs, Obs.asks]
    · rw [hlog]
      unfold answered
      rw [List.countP_cons_of_neg (by simp [Obs.answers]),
        List.countP_cons_of_neg (by simp [Query.refreshObs, Obs.answers]), List.countP_cons,
        answers_doneObs, verdict]
      by_cases hc : c = message.1
      · simp [hc]
      · simp [hc, Ne.symm hc]

theorem handleLedger_invariant (platform : Platform) (config : Config) (own : List Nat) :
    MultiInvariant platform config own fun r p =>
      Multi.Sound p ∧ (r ≠ .error .undefined → HandleLedger platform config p) where
  request flags t0 input pending p hpending h := by
    have hkeep := @requestOn_invariant platform config
      (fun p => Multi.Sound p ∧ HandleLedger platform config p) flags t0 input pending
      (fun p c _ h => ⟨prepareOn_sound h.1 flags t0 input.easyInit c,
        h.2.prepareOn h.1 flags t0 input.easyInit c⟩)
      (fun p h => by
        refine ⟨transfers_sound h.1 input pending, ?_⟩
        have hlog := @transfers_asked platform config input
          pending.length p.1
        have hcongr := h.2.congr (fun c => (hlog c).1) (fun c => (hlog c).2)
        split
        · exact ⟨hcongr.balance, hcongr.foreign⟩
        · exact hcongr)
      p ⟨h.1, h.2 (by simp)⟩
    exact ⟨hkeep.1, fun _ => hkeep.2⟩
  message message q hrunning h :=
    ⟨(multi_sound_invariant platform config own).message message q hrunning h.1,
      fun halive => (h.2 (by simp)).message h.1 hrunning halive⟩
  sleep milliseconds p h :=
    ⟨(multi_sound_invariant platform config own).sleep milliseconds p h.1,
      fun halive => (h.2 halive).observe (fun _ => rfl) (fun _ => rfl)⟩
  exceeded p h :=
    ⟨(multi_sound_invariant platform config own).exceeded p h.1,
      fun halive => (@HandleLedger.congr platform config p (p.1.tally .httpRetriesExceeded 1)
        (h.2 halive) (fun _ => rfl) (fun _ => rfl)).observe (fun _ => rfl) (fun _ => rfl)⟩
  close r p c h := by
    refine ⟨closeHandle_sound h.1 c, fun halive => ?_⟩
    unfold closeHandle
    split
    · exact ((h.2 halive).close c).congr (fun _ => rfl) (fun _ => rfl)
    · exact h.2 halive

/-! ## Runs -/

/-- Every handle that was added was removed before it was closed, the multi handle contains none,
and every message that was read belongs to a connection that was pending. -/
structure Disciplined (poller : Poller) : Prop where
  removed : ∀ c, HandleOp.close c true ∉ poller.multi.ops
  empty : poller.multi.attached = []
  own : ∀ c counted, HandleOp.done c counted false ∉ poller.multi.ops

theorem HandleLedger.disciplined_iff {poller : Poller}
    (h : HandleLedger platform config (poller.state, poller.multi)) :
    Disciplined poller ↔ ∀ c, asked c poller.state.log =
      answered platform config c poller.state.log := by
  constructor
  · intro hdisciplined c
    have hbalance := h.balance c
    have hdropped : poller.multi.dropped c = 0 :=
      List.count_eq_zero.mpr (hdisciplined.removed c)
    have hheld : poller.multi.held c = 0 := by simp [Multi.held, hdisciplined.empty]
    dsimp only at hbalance
    omega
  · intro hall
    have hnone : ∀ c, poller.multi.dropped c = 0 ∧ poller.multi.held c = 0 := by
      intro c
      have hbalance := h.balance c
      have heq := hall c
      dsimp only at hbalance
      omega
    have hremoved : ∀ c, HandleOp.close c true ∉ poller.multi.ops :=
      fun c => List.count_eq_zero.mp (hnone c).1
    have hempty : ∀ c, c ∉ poller.multi.attached := by
      intro c hmem
      have hheld := (hnone c).2
      rw [Multi.held, if_pos hmem] at hheld
      cases hheld
    refine ⟨hremoved, List.eq_nil_iff_forall_not_mem.mpr hempty, fun c counted hdone => ?_⟩
    rcases h.foreign c counted hdone with hclosed | ⟨hattached, _⟩
    · exact hremoved c hclosed
    · exact hempty c hattached

/-- In every run of queries that the process survives, easy handles are disciplined exactly where
every request of every connection has an accepted response. -/
theorem handles_disciplined_iff (platform : Platform) (config : Config) (inputs : List PollerInput)
    (count : Nat) (connections : Nat → Connection) (provider : Provider)
    (halive : (Poller.run platform config inputs (.init count connections provider)).1 = .ok ()) :
    let poller := (Poller.run platform config inputs (.init count connections provider)).2
    Disciplined poller ↔
      ∀ c, asked c poller.state.log = answered platform config c poller.state.log := by
  have hinv : PollerInvariant platform config fun r p => Rested p ∧
      (r ≠ .error .undefined → HandleLedger platform config p) :=
    rested_invariant (handleLedger_invariant platform config)
      (fun td p h halive => (h halive).congr (fun _ => rfl) (fun _ => rfl))
      (fun p h halive => (h halive).congr (fun _ => rfl) (fun _ => rfl))
      (fun counter _ p h halive => (h halive).congr (fun _ => rfl) (fun _ => rfl))
      (fun he h _ => h (by simpa using he))
      (fun events p h _ => (h (by simp)).congr (fun _ => rfl) (fun _ => rfl))
  have hrun := @poller_invariant platform config _ hinv inputs (.init count connections provider)
    ⟨.of_clean rfl, fun _ => ⟨fun _ => rfl, fun _ _ hdone => by cases hdone⟩⟩
  exact (hrun.2 (by rw [halive]; simp)).disciplined_iff

/-- One tick of an instance with one connection, to which the server sends a complete
response. -/
def servedRun : Except Fault Unit × Poller :=
  Poller.run boostPlatform sampleConfig
    [.tick { query := sampleQuery "Date: Thu, 03 May 2012 21:20:00 GMT\r\n".toList }]
    (.init 1 sampleState.connections sampleState.provider)

/-- The entry is about no other connection. -/
def Obs.isOf (c : Nat) : Obs → Bool
  | .request c' _ => c' = c
  | .done c' _ _ _ => c' = c
  | _ => true

/-- A connection that the log does not mention was not asked for and not answered. -/
theorem not_asked_of_isOf {c c' : Nat} {log : List Obs} (h : ∀ o ∈ log, o.isOf c = true)
    (hne : c' ≠ c) : asked c' log = 0 ∧ answered platform config c' log = 0 := by
  unfold asked answered
  rw [List.countP_eq_zero, List.countP_eq_zero]
  refine ⟨fun o ho hasks => ?_, fun o ho hanswers => ?_⟩
  · have hof := h o ho
    unfold Obs.asks at hasks
    split at hasks
    · exact hne ((of_decide_eq_true hasks).symm.trans (of_decide_eq_true hof))
    · cases hasks
  · have hof := h o ho
    unfold Obs.answers at hanswers
    split at hanswers
    · obtain ⟨hc, _⟩ := Bool.and_eq_true_iff.mp hanswers
      exact hne ((of_decide_eq_true hc).symm.trans (of_decide_eq_true hof))
    · cases hanswers

set_option maxRecDepth 10000 in
theorem sample_disciplined : Disciplined servedRun.2 := by
  obtain ⟨halive, hzero, hothers⟩ : servedRun.1 = .ok () ∧
      asked 0 servedRun.2.state.log =
        answered boostPlatform sampleConfig 0 servedRun.2.state.log ∧
      ∀ o ∈ servedRun.2.state.log, o.isOf 0 = true := by
    unfold servedRun sampleQuery
    rw [sampleBody_eq]
    decide +kernel
  unfold servedRun at halive hzero hothers ⊢
  refine (handles_disciplined_iff boostPlatform sampleConfig
    [.tick { query := sampleQuery "Date: Thu, 03 May 2012 21:20:00 GMT\r\n".toList }] 1
    sampleState.connections sampleState.provider halive).mpr fun c => ?_
  by_cases hc : c = 0
  · rw [hc]
    exact hzero
  · obtain ⟨hasked, hanswered⟩ := @not_asked_of_isOf boostPlatform sampleConfig 0 c _ hothers hc
    rw [hasked, hanswered]

/-- The handle of a page that was not found is still in the multi handle when it is closed. -/
theorem not_found_closes_attached : ¬ Disciplined (statusRun 404) := by
  intro h
  apply h.removed 0
  decide +kernel

end Psych
