import Psych.Query.Attached
import Psych.Query.Shared
import Psych.Query.RoundLog
import Mathlib.Data.List.Perm.Subperm

/-!
# The ledger of the responses

The log of the queries holds every response that was looked at. The counters of the responses are
counts over it, `PSYCH_PC_HTTP_MALFORMED` counts the responses that are not accepted whatever their
status, and each accepted one is passed to `SendRefresh` (`Counted`). Each response that is read
belongs to a request that is counted in `PSYCH_PC_HTTP_REQUEST_SENT`, unless a callback left the
first `curl_multi_perform` after the request.
-/

namespace Psych

variable {platform : Platform} {config : Config}

/-! ## Responses in the log -/

def Obs.response : Obs → Option (Transfer × Connection)
  | .done _ transfer connection _ => some (transfer, connection)
  | _ => none

def Obs.isRefresh : Obs → Bool
  | .refresh .. => true
  | _ => false

def Obs.isRequest : Obs → Bool
  | .request .. => true
  | _ => false

def responses (log : List Obs) : List (Transfer × Connection) := log.filterMap Obs.response

/-- The number of responses that were passed to `SendRefresh`. -/
def refreshed (log : List Obs) : Nat := log.countP Obs.isRefresh

/-- The result of `OnHttpResponse`. -/
def outcome (platform : Platform) (config : Config) (response : Transfer × Connection) :
    Except Fault Bool :=
  (respond platform config response.1 response.2 (fun _ => 0) []).1

/-- The response counts on the counter. -/
def countsOn (platform : Platform) (c : Counter) (response : Transfer × Connection) : Bool :=
  !logsNull platform response.1 &&
    (statusClass response.1.responseCode == some c || statusOwn response.1.responseCode == some c)

/-- The counters of the statuses. -/
def Counter.ofStatus : Counter → Bool
  | .http1xxReceived | .http2xxReceived | .http3xxReceived | .http4xxReceived | .http5xxReceived
  | .http200Received | .http304Received => true
  | _ => false

theorem verdict_eq_outcome (message : Nat × Report) (q : Query) :
    (q.verdict platform config message).1 =
      outcome platform config (message.2.transfer, q.state.connections message.1) :=
  respond_verdict platform config _ _ platform.uninitialised _ _

/-- No counter counts a status twice. -/
theorem statusClass_ne_of_own {responseCode : Int} {c : Counter}
    (h : statusOwn responseCode = some c) : statusClass responseCode ≠ some c := by
  unfold statusOwn at h
  unfold statusClass
  split_ifs at h ⊢ <;> cases h <;> simp

theorem responseCount_eq (response : Transfer × Connection) (c : Counter) :
    responseCount platform response.1 c = if countsOn platform c response then 1 else 0 := by
  unfold responseCount countsOn
  cases logsNull platform response.1 with
  | true => simp
  | false =>
    unfold statusCount
    by_cases hown : statusOwn response.1.responseCode = some c
    · simp [hown, statusClass_ne_of_own hown]
    · simp [hown]

theorem responses_length_le (log : List Obs) : (responses log).length ≤ log.length :=
  List.length_filterMap_le _ _

theorem responses_append (new old : List Obs) :
    responses (new ++ old) = responses new ++ responses old :=
  List.filterMap_append

/-! ## The ledger -/

/-- The transfers still to be reported whose request is counted. -/
def Multi.counted (multi : Multi) : List Nat :=
  multi.running.filter fun c => !multi.uncounted.contains c

/-- Every response that was read belongs to a request that was counted. -/
def Multi.ReadsCounted (multi : Multi) : Prop := ∀ c own, HandleOp.done c false own ∉ multi.ops

structure Counted (platform : Platform) (config : Config) (p : State × Multi) : Prop where
  status : ∀ c, c.ofStatus = true →
    p.1.stats c = BitVec.ofNat 32 ((responses p.1.log).countP (countsOn platform c))
  malformed : p.1.stats .httpMalformed =
    BitVec.ofNat 32 ((responses p.1.log).countP (outcome platform config · = .ok false))
  refreshed : refreshed p.1.log =
    (responses p.1.log).countP (outcome platform config · = .ok true)
  sent : ∃ sent, p.1.stats .httpRequestSent = BitVec.ofNat 32 sent ∧
    sent ≤ p.1.log.countP Obs.isRequest ∧
    (p.2.ReadsCounted → (responses p.1.log).length + p.2.counted.length ≤ sent)

/-- The state keeps its counters and its responses. -/
structure SameLedger (p p' : State) : Prop where
  status : ∀ c, c.ofStatus = true → p'.stats c = p.stats c
  malformed : p'.stats .httpMalformed = p.stats .httpMalformed
  sent : p'.stats .httpRequestSent = p.stats .httpRequestSent
  responses : responses p'.log = responses p.log
  refreshed : refreshed p'.log = refreshed p.log
  requests : p.log.countP Obs.isRequest ≤ p'.log.countP Obs.isRequest

theorem Counted.congr {p : State × Multi} {state : State} (h : Counted platform config p)
    (hsame : SameLedger p.1 state) : Counted platform config (state, p.2) := by
  obtain ⟨sent, hsent, hle, hread⟩ := h.sent
  refine ⟨fun c hc => ?_, ?_, ?_, sent, hsame.sent.trans hsent, hle.trans hsame.requests, ?_⟩
  · rw [hsame.status c hc, hsame.responses]
    exact h.status c hc
  · rw [hsame.malformed, hsame.responses]
    exact h.malformed
  · rw [hsame.refreshed, hsame.responses]
    exact h.refreshed
  · dsimp only
    rw [hsame.responses]
    exact hread

theorem SameLedger.of_log {p p' : State} (hstats : p'.stats = p.stats) (hlog : p'.log = p.log) :
    SameLedger p p' := by
  constructor <;> simp [hstats, hlog]

theorem sameLedger_tally {counter : Counter} (hstatus : counter.ofStatus = false)
    (hmalformed : counter ≠ .httpMalformed) (hsent : counter ≠ .httpRequestSent) (n : Nat)
    (p : State) : SameLedger p (p.tally counter n) := by
  have hother : ∀ c, c ≠ counter → (p.tally counter n).stats c = p.stats c :=
    fun c hc => if_neg hc
  refine ⟨fun c hc => hother c ?_, hother _ hmalformed.symm, hother _ hsent.symm, rfl, rfl, le_rfl⟩
  rintro rfl
  rw [hstatus] at hc
  cases hc

/-! ## Requests -/

/-- Preparing the pending connections logs a request for each. -/
theorem prepare_requests (flags : QueryFlags) (t0 : Int) (easyInit : Nat → Bool)
    (pending : List Nat) (p : State) :
    let p' := pending.foldl (prepare platform config flags t0 easyInit) p
    p'.stats = p.stats ∧ responses p'.log = responses p.log ∧ refreshed p'.log = refreshed p.log ∧
      p'.log.countP Obs.isRequest = pending.length + p.log.countP Obs.isRequest := by
  induction pending generalizing p with
  | nil => simp
  | cons c pending ih =>
    obtain ⟨hstats, hresponses, hrefreshed, hrequests⟩ :=
      ih (prepare platform config flags t0 easyInit p c)
    obtain ⟨request, hlog⟩ : ∃ request,
        (prepare platform config flags t0 easyInit p c).log = .request c request :: p.log := by
      unfold prepare
      dsimp only
      split <;> exact ⟨_, rfl⟩
    have hkeep : (prepare platform config flags t0 easyInit p c).stats = p.stats := by
      unfold prepare
      dsimp only
      split <;> rfl
    rw [hlog] at hresponses hrefreshed hrequests
    refine ⟨hstats.trans hkeep, hresponses, hrefreshed, hrequests.trans ?_⟩
    rw [List.countP_cons_of_pos rfl, List.length_cons]
    omega

theorem callback_stats (call : Callback) (p : State) :
    (callback platform call p).2.stats = p.stats := by
  cases call with
  | data c chunk => rfl
  | header c line =>
    unfold callback
    dsimp only
    split <;> rfl

/-- The transfers count their requests where the first `curl_multi_perform` returns. -/
theorem transfers_stats (input : RoundInput) (requests : Nat) (p : State) :
    (transfers platform input requests p).2.stats =
      if input.performs platform p then p.stats.add .httpRequestSent requests else p.stats := by
  have hloop : ∀ calls p, (Faults.forEach (callback platform) calls p).2.stats = p.stats :=
    Faults.forEach_rel (fun p p' : State => p'.stats = p.stats) (fun _ => rfl)
      (fun _ _ _ h h' => h'.trans h) callback_stats
  have hfirst := hloop input.first p
  unfold transfers RoundInput.performs
  cases hr : Faults.forEach (callback platform) input.first p with
  | mk r p' =>
    rw [hr] at hfirst
    cases r with
    | error e => exact hfirst
    | ok _ =>
      dsimp only at hfirst ⊢
      rw [hloop, Faults.succeeded_ok, if_pos rfl, ← hfirst]
      rfl

theorem transfers_ledger (input : RoundInput) (requests : Nat) (p : State) :
    let p' := (transfers platform input requests p).2
    responses p'.log = responses p.log ∧ refreshed p'.log = refreshed p.log ∧
      p'.log.countP Obs.isRequest = p.log.countP Obs.isRequest := by
  obtain ⟨new, hlog, hnew⟩ := transfers_log platform input requests p
  have hresponses : responses new = [] := by
    refine List.filterMap_eq_nil_iff.mpr fun o ho => ?_
    obtain ⟨c, line, rfl⟩ := hnew o ho
    rfl
  refine ⟨?_, transfers_countP (fun _ _ => rfl) input requests p,
    transfers_countP (fun _ _ => rfl) input requests p⟩
  rw [hlog, responses_append, hresponses]
  rfl

theorem mem_uncounted_prepareOn {flags : QueryFlags} {t0 : Int} {easyInit : Nat → Bool}
    {p : State × Multi} {c c' : Nat} (hne : c' ≠ c) :
    c' ∈ (prepareOn platform config flags t0 easyInit p c).2.uncounted ↔
      c' ∈ p.2.uncounted := by
  unfold prepareOn
  dsimp only
  split <;> split <;> simp [Multi.add, Multi.close, Multi.detach, hne]

/-- Preparing the pending connections leaves the others alone, and their requests are not counted
yet. -/
theorem mem_uncounted_foldl (flags : QueryFlags) (t0 : Int) (easyInit : Nat → Bool)
    (pending : List Nat) (p : State × Multi) (c : Nat) :
    let multi := (pending.foldl (prepareOn platform config flags t0 easyInit) p).2
    (c ∉ pending → (c ∈ multi.uncounted ↔ c ∈ p.2.uncounted)) ∧
      (c ∈ pending → easyInit c = true → c ∈ multi.uncounted) := by
  induction pending generalizing p with
  | nil => simp
  | cons c' pending ih =>
    obtain ⟨hout, hin⟩ := ih (prepareOn platform config flags t0 easyInit p c')
    refine ⟨fun hc => ?_, fun hc hinit => ?_⟩
    · rw [List.mem_cons, not_or] at hc
      exact (hout hc.2).trans (mem_uncounted_prepareOn hc.1)
    · by_cases hmem : c ∈ pending
      · exact hin hmem hinit
      · rw [List.mem_cons, or_iff_left hmem] at hc
        subst hc
        apply (hout hmem).mpr
        unfold prepareOn
        dsimp only
        rw [if_pos hinit]
        exact List.mem_cons_self

/-- The requests of a round make at most as many counted transfers as they count. -/
theorem counted_requestOn {p : State × Multi} (h : Multi.Sound p) (flags : QueryFlags) (t0 : Int)
    (input : RoundInput) (pending : List Nat) :
    let prepared := pending.foldl (prepareOn platform config flags t0 input.easyInit) p
    (requestOn platform config flags t0 input pending p).2.2.counted.length ≤
      (if input.performs platform prepared.1 then pending.length else 0) +
        p.2.counted.length := by
  have hnodup := (@requestOn_sound platform config p h flags t0 input pending).nodup
  have hrunning := @mem_running_requestOn platform config p h flags t0 input pending
  have huncounted := @mem_uncounted_foldl platform config flags t0 input.easyInit pending p
  dsimp only
  by_cases hperforms : input.performs platform
      (pending.foldl (prepareOn platform config flags t0 input.easyInit) p).1 = true
  · rw [if_pos hperforms, ← List.length_append]
    refine (List.subperm_of_subset (hnodup.filter _) fun c hc => ?_).length_le
    rw [List.mem_append]
    by_cases hpending : c ∈ pending
    · exact Or.inl hpending
    · obtain ⟨hc, hcounted⟩ := List.mem_filter.mp hc
      have hold := ((hrunning c).mp hc).resolve_left fun h => hpending h.1
      refine Or.inr (List.mem_filter.mpr ⟨hold.2, ?_⟩)
      unfold requestOn at hcounted
      dsimp only at hcounted
      rw [if_pos hperforms] at hcounted
      have hiff := (huncounted c).1 hpending
      simp_all [Multi.count]
  · rw [if_neg hperforms, Nat.zero_add]
    refine (List.subperm_of_subset (hnodup.filter _) fun c hc => ?_).length_le
    obtain ⟨hc, hcounted⟩ := List.mem_filter.mp hc
    unfold requestOn at hcounted
    dsimp only at hcounted
    rw [if_neg hperforms] at hcounted
    rcases (hrunning c).mp hc with ⟨hpending, hinit⟩ | ⟨hpending, hold⟩
    · have hmem := (huncounted c).2 hpending hinit
      simp_all
    · have hiff := (huncounted c).1 hpending
      refine List.mem_filter.mpr ⟨hold, ?_⟩
      simp_all

/-! ## Messages -/

theorem ofStatus_of_class {responseCode : Int} {c : Counter}
    (h : statusClass responseCode = some c) : c.ofStatus = true := by
  unfold statusClass at h
  split_ifs at h <;> cases h <;> rfl

theorem ofStatus_of_own {responseCode : Int} {c : Counter} (h : statusOwn responseCode = some c) :
    c.ofStatus = true := by
  unfold statusOwn at h
  split_ifs at h <;> cases h <;> rfl

theorem responseCount_of_other {c : Counter} (h : c.ofStatus = false) (transfer : Transfer) :
    responseCount platform transfer c = 0 := by
  unfold responseCount statusCount
  have hclass : statusClass transfer.responseCode ≠ some c := fun hclass => by
    rw [ofStatus_of_class hclass] at h
    cases h
  have hown : statusOwn transfer.responseCode ≠ some c := fun hown => by
    rw [ofStatus_of_own hown] at h
    cases h
  rw [if_neg hclass, if_neg hown, ite_self]

/-- The response a message is about. -/
def Query.response (message : Nat × Report) (q : Query) : Transfer × Connection :=
  (message.2.transfer, q.state.connections message.1)

theorem message_log (message : Nat × Report) (q : Query) :
    let p := (handleMessage platform config message q).2.state
    responses p.log = q.response message :: responses q.state.log ∧
      refreshed p.log = refreshed q.state.log +
        (if outcome platform config (q.response message) = .ok true then 1 else 0) ∧
      p.log.countP Obs.isRequest = q.state.log.countP Obs.isRequest := by
  have hverdict := @verdict_eq_outcome platform config message q
  change _ = outcome platform config (q.response message) at hverdict
  rw [← hverdict]
  dsimp only
  have hpublished : ∀ log, refreshed
      (q.refreshObs platform config message :: q.doneObs platform config message :: log) =
        refreshed log + 1 := by
    simp [refreshed, Query.refreshObs, Query.doneObs, Obs.isRefresh, List.countP_cons]
  rcases @handleMessage_cases platform config message q with
    ⟨_, verdict, _, hlog⟩ | ⟨verdict, _, hlog⟩ | ⟨verdict, _, _, hlog⟩ | ⟨verdict, _, _, _, hlog⟩
  · rw [hlog, verdict]
    exact ⟨rfl, rfl, rfl⟩
  · rw [hlog, verdict]
    exact ⟨rfl, rfl, rfl⟩
  · rw [hlog, verdict, if_pos rfl]
    exact ⟨rfl, hpublished _, rfl⟩
  · rw [hlog, verdict, if_pos rfl]
    exact ⟨rfl, hpublished _, rfl⟩

/-- What a message counts on the other counters. -/
theorem message_stats (message : Nat × Report) (q : Query) {c : Counter} (hc : c.drift = false) :
    (handleMessage platform config message q).2.state.stats c = q.state.stats c +
      BitVec.ofNat 32 (responseCount platform (q.response message).1 c +
        if c = .httpMalformed ∧ outcome platform config (q.response message) = .ok false then 1
        else 0) := by
  have hverdict := @verdict_eq_outcome platform config message q
  change _ = outcome platform config (q.response message) at hverdict
  have hrespond := respond_stats platform config (q.response message).1 (q.response message).2
    q.state.stats q.engineVersion hc
  rw [handleMessage_stats, hverdict, BitVec.ofNat_add, ← BitVec.add_assoc, ← hrespond]
  change (if _ then _ else _ : Stats) c = (q.verdict platform config message).2.stats c + _
  by_cases hmalformed : c = .httpMalformed <;>
    by_cases hrejected : outcome platform config (q.response message) = .ok false <;>
    simp [hmalformed, hrejected, Stats.add]

theorem counted_detach_subset (c : Nat) (op : HandleOp) (multi : Multi) :
    (multi.detach c op).counted ⊆ multi.counted := by
  intro c' hc'
  obtain ⟨hrunning, hnot⟩ := List.mem_filter.mp hc'
  obtain ⟨hrunning, hne⟩ := Multi.mem_running_detach.mp hrunning
  refine List.mem_filter.mpr ⟨hrunning, ?_⟩
  simp_all [Multi.detach]

/-- A message is about a counted transfer. -/
theorem counted_handleMessageOn {message : Nat × Report} {q : Query × Multi}
    (hrunning : message.1 ∈ q.2.running) (hnodup : q.2.running.Nodup)
    (hreads : (handleMessageOn platform config message q).2.2.ReadsCounted) :
    q.2.ReadsCounted ∧
      (handleMessageOn platform config message q).2.2.counted.length + 1 ≤ q.2.counted.length := by
  have hops : ∀ op ∈ (q.2.read q.1.pending message.1).ops,
      op ∈ (handleMessageOn platform config message q).2.2.ops := by
    intro op hop
    unfold handleMessageOn
    dsimp only
    split
    · exact List.mem_cons_of_mem _ hop
    · exact hop
  have hcounted : q.2.uncounted.contains message.1 = false := by
    by_contra h
    rw [Bool.not_eq_false] at h
    refine hreads message.1 (q.1.pending.contains message.1) (hops _ ?_)
    unfold Multi.read
    rw [h]
    exact List.mem_cons_self
  refine ⟨fun c own hc => hreads c own (hops _ (List.mem_cons_of_mem _ hc)), ?_⟩
  have hsub : ∀ c ∈ (handleMessageOn platform config message q).2.2.counted,
      c ∈ q.2.counted ∧ c ≠ message.1 := by
    intro c hc
    obtain ⟨hc, hnot⟩ := List.mem_filter.mp hc
    have hold := (mem_running_handleMessageOn message q c).mp hc
    refine ⟨List.mem_filter.mpr ⟨hold.1, ?_⟩, hold.2⟩
    unfold handleMessageOn at hnot
    dsimp only at hnot
    split at hnot
    · simp_all [Multi.remove, Multi.detach, Multi.read]
    · exact hnot
  have hnodup' : (handleMessageOn platform config message q).2.2.running.Nodup := by
    unfold handleMessageOn
    dsimp only
    split
    · exact (hnodup.filter _).filter _
    · exact hnodup.filter _
  have hcons : (message.1 :: (handleMessageOn platform config message q).2.2.counted).Nodup :=
    List.nodup_cons.mpr ⟨fun h => (hsub _ h).2 rfl, hnodup'.filter _⟩
  refine (List.subperm_of_subset hcons fun c hc => ?_).length_le
  rcases List.mem_cons.mp hc with rfl | hc
  · exact List.mem_filter.mpr ⟨hrunning, by rw [hcounted]; rfl⟩
  · exact (hsub c hc).1

/-! ## The ledger in the course of queries -/

theorem requestOn_ledger {p : State × Multi} (h : Multi.Sound p) (flags : QueryFlags) (t0 : Int)
    (input : RoundInput) (pending : List Nat) :
    let p' := (requestOn platform config flags t0 input pending p).2
    ∃ n ≤ pending.length, p'.1.stats = p.1.stats.add .httpRequestSent n ∧
      responses p'.1.log = responses p.1.log ∧ refreshed p'.1.log = refreshed p.1.log ∧
      p'.1.log.countP Obs.isRequest = pending.length + p.1.log.countP Obs.isRequest ∧
      p'.2.counted.length ≤ n + p.2.counted.length := by
  obtain ⟨hstats, hresponses, hrefreshed, hrequests⟩ := @prepare_requests platform config flags t0
    input.easyInit pending p.1
  obtain ⟨hresponses', hrefreshed', hrequests'⟩ := @transfers_ledger platform input
    pending.length (pending.foldl (prepare platform config flags t0 input.easyInit) p.1)
  have hcounted := @counted_requestOn platform config p h flags t0 input pending
  have hsent := @transfers_stats platform input pending.length
    (pending.foldl (prepare platform config flags t0 input.easyInit) p.1)
  rw [hstats] at hsent
  dsimp only at hcounted ⊢
  rw [foldl_prepareOn_fst] at hcounted
  refine ⟨_, ?_, ?_, ?_, ?_, ?_, hcounted⟩
  · split
    · exact le_rfl
    · exact Nat.zero_le _
  · rw [requestOn_eq]
    dsimp only
    rw [hsent]
    split
    · rfl
    · funext c
      unfold Stats.add
      split <;> simp
  · rw [requestOn_eq]
    exact hresponses'.trans hresponses
  · rw [requestOn_eq]
    exact hrefreshed'.trans hrefreshed
  · rw [requestOn_eq]
    exact hrequests'.trans hrequests

theorem ops_requestOn_subset (flags : QueryFlags) (t0 : Int) (input : RoundInput)
    (pending : List Nat) (p : State × Multi) :
    p.2.ops ⊆ (requestOn platform config flags t0 input pending p).2.2.ops := by
  refine requestOn_invariant (J := fun p' => p.2.ops ⊆ p'.2.ops) (fun p' c _ h => ?_)
    (fun p' h => ?_) (List.Subset.refl _)
  · apply List.Subset.trans h
    unfold prepareOn
    dsimp only
    split <;> split <;> simp [Multi.add, Multi.close, Multi.detach]
  · dsimp only
    split <;> exact h

theorem Counted.request {p : State × Multi} (hsound : Multi.Sound p)
    (h : Counted platform config p) (flags : QueryFlags) (t0 : Int) (input : RoundInput)
    (pending : List Nat) :
    Counted platform config (requestOn platform config flags t0 input pending p).2 := by
  obtain ⟨sent, hsent, hle, hread⟩ := h.sent
  obtain ⟨n, hn, hstats, hresponses, hrefreshed, hrequests, hcounted⟩ :=
    @requestOn_ledger platform config p hsound flags t0 input pending
  have hother : ∀ c, c ≠ .httpRequestSent →
      (p.1.stats.add .httpRequestSent n) c = p.1.stats c := fun c hc => if_neg hc
  refine ⟨fun c hc => ?_, ?_, ?_, sent + n, ?_, ?_, fun hreads => ?_⟩
  · rw [hstats, hresponses, hother c (by rintro rfl; cases hc)]
    exact h.status c hc
  · rw [hstats, hresponses, hother _ (by simp)]
    exact h.malformed
  · rw [hresponses, hrefreshed]
    exact h.refreshed
  · rw [hstats, Stats.add, if_pos rfl, hsent, BitVec.ofNat_add]
  · rw [hrequests]
    omega
  · have hold := hread fun c own hc => hreads c own (ops_requestOn_subset flags t0 input pending p hc)
    rw [hresponses]
    omega

theorem Counted.message {message : Nat × Report} {q : Query × Multi}
    (hsound : Multi.Sound (q.1.state, q.2)) (hrunning : message.1 ∈ q.2.running)
    (h : Counted platform config (q.1.state, q.2)) :
    Counted platform config ((handleMessageOn platform config message q).2.1.state,
      (handleMessageOn platform config message q).2.2) := by
  obtain ⟨sent, hsent, hle, hread⟩ := h.sent
  obtain ⟨hresponses, hrefreshed, hrequests⟩ := @message_log platform config message q.1
  have hstats := fun (c : Counter) (hc : c.drift = false) =>
    @message_stats platform config message q.1 c hc
  refine ⟨fun c hc => ?_, ?_, ?_, sent, ?_, ?_, fun hreads => ?_⟩
  · have hdrift : c.drift = false := by cases c <;> first | rfl | cases hc
    have hne : c ≠ .httpMalformed := by
      rintro rfl
      cases hc
    change (handleMessage platform config message q.1).2.state.stats c =
      BitVec.ofNat 32 ((responses (handleMessage platform config message q.1).2.state.log).countP _)
    rw [hstats c hdrift, if_neg fun hand => hne hand.1, Nat.add_zero,
      responseCount_eq (q.1.response message), hresponses, List.countP_cons, BitVec.ofNat_add,
      BitVec.add_comm, BitVec.add_comm _ (BitVec.ofNat 32 _)]
    exact congrArg _ (h.status c hc)
  · change (handleMessage platform config message q.1).2.state.stats .httpMalformed =
      BitVec.ofNat 32 ((responses (handleMessage platform config message q.1).2.state.log).countP _)
    rw [hstats _ rfl, responseCount_of_other rfl, Nat.zero_add, hresponses, List.countP_cons,
      BitVec.ofNat_add]
    simp only [true_and, decide_eq_true_eq]
    exact congrArg (· + _) h.malformed
  · change Psych.refreshed (handleMessage platform config message q.1).2.state.log =
      (responses (handleMessage platform config message q.1).2.state.log).countP _
    rw [hrefreshed, hresponses, List.countP_cons]
    simp only [decide_eq_true_eq]
    exact congrArg (· + _) h.refreshed
  · change (handleMessage platform config message q.1).2.state.stats .httpRequestSent = _
    rw [hstats _ rfl, responseCount_of_other rfl, if_neg (by simp)]
    simpa using hsent
  · change sent ≤ (handleMessage platform config message q.1).2.state.log.countP Obs.isRequest
    rw [hrequests]
    exact hle
  · obtain ⟨hold, hcounted⟩ := counted_handleMessageOn hrunning hsound.nodup hreads
    have hlength := hread hold
    change (responses (handleMessage platform config message q.1).2.state.log).length + _ ≤ sent
    rw [hresponses, List.length_cons]
    dsimp only at hlength ⊢
    omega

theorem sameLedger_observe (p : State) {o : Obs} (hresponse : o.response = none)
    (hrefresh : o.isRefresh = false) : SameLedger p (p.observe o) where
  status _ _ := rfl
  malformed := rfl
  sent := rfl
  responses := by
    unfold responses State.observe
    rw [List.filterMap_cons_none hresponse]
  refreshed := by
    unfold refreshed State.observe
    rw [List.countP_cons_of_neg (by rw [hrefresh]; simp)]
  requests := (List.sublist_cons_self o p.log).countP_le

theorem SameLedger.trans {p p' p'' : State} (h : SameLedger p p') (h' : SameLedger p' p'') :
    SameLedger p p'' :=
  ⟨fun c hc => (h'.status c hc).trans (h.status c hc), h'.malformed.trans h.malformed,
    h'.sent.trans h.sent, h'.responses.trans h.responses, h'.refreshed.trans h.refreshed,
    h.requests.trans h'.requests⟩

/-- The ledger is kept by every step of every query. -/
theorem counted_invariant (platform : Platform) (config : Config) (own : List Nat) :
    MultiInvariant platform config own fun _ p =>
      Multi.Sound p ∧ Counted platform config p where
  request flags t0 input pending p hpending h :=
    ⟨(multi_sound_invariant platform config own).request flags t0 input pending p hpending h.1,
      h.2.request h.1 flags t0 input pending⟩
  message message q hrunning h :=
    ⟨(multi_sound_invariant platform config own).message message q hrunning h.1,
      h.2.message h.1 hrunning⟩
  sleep milliseconds p h :=
    ⟨(multi_sound_invariant platform config own).sleep milliseconds p h.1,
      h.2.congr (sameLedger_observe p.1 rfl rfl)⟩
  exceeded p h :=
    ⟨(multi_sound_invariant platform config own).exceeded p h.1,
      h.2.congr ((sameLedger_tally rfl (by simp) (by simp) 1 p.1).trans
        (sameLedger_observe _ rfl rfl))⟩
  close _ p c h := by
    refine ⟨closeHandle_sound h.1 c, ?_⟩
    unfold closeHandle
    split
    · obtain ⟨sent, hsent, hle, hread⟩ := h.2.sent
      refine ⟨h.2.status, h.2.malformed, h.2.refreshed, sent, hsent, hle, fun hreads => ?_⟩
      have hlength := hread fun c' own hc' => hreads c' own (List.mem_cons_of_mem _ hc')
      have hsub : (p.2.close c).counted.length ≤ p.2.counted.length :=
        (List.subperm_of_subset ((h.1.detach c _).nodup.filter _)
          (counted_detach_subset c _ p.2)).length_le
      dsimp only at hlength ⊢
      exact (Nat.add_le_add_left hsub _).trans hlength
    · exact h.2

end Psych
