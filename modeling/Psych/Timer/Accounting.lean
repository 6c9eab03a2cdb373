import Psych.Query.Ledger
import Psych.Timer.Poller

/-!
# The counters of a run

Over every run of queries of the timer and of the Tcl commands, the counters of the responses
account for the requests and for what is passed to `SendRefresh` where every response has
status 200 and is looked at without a fault, and its request was counted (`accounts_of_run`). A
response with another status is counted as malformed although its content is not looked at.
-/

namespace Psych

variable {platform : Platform} {config : Config}

/-! ## The law of the counters -/

/-- A response with status 200 that is rejected for its content. -/
def contentRejected (platform : Platform) (config : Config) (response : Transfer × Connection) :
    Bool :=
  response.1.responseCode = 200 && outcome platform config response = .ok false

/-- The counters account for the requests and the responses. -/
structure Accounts (platform : Platform) (config : Config) (p : State) : Prop where
  classes : (p.stats .http1xxReceived).toNat + (p.stats .http2xxReceived).toNat +
    (p.stats .http3xxReceived).toNat + (p.stats .http4xxReceived).toNat +
    (p.stats .http5xxReceived).toNat ≤ (p.stats .httpRequestSent).toNat
  ok : (p.stats .http200Received).toNat ≤ (p.stats .http2xxReceived).toNat
  notModified : (p.stats .http304Received).toNat ≤ (p.stats .http3xxReceived).toNat
  malformed : (p.stats .httpMalformed).toNat =
    (responses p.log).countP (contentRejected platform config)
  published : ((p.stats .http200Received).toNat : Int) - (p.stats .httpMalformed).toNat =
    refreshed p.log

/-- The response has status 200, and `OnHttpResponse` returns. -/
def served (platform : Platform) (config : Config) (response : Transfer × Connection) : Prop :=
  response.1.responseCode = 200 ∧ ¬ faulty platform config response.1 response.2

theorem outcome_error_iff (response : Transfer × Connection) :
    (∃ e, outcome platform config response = .error e) ↔
      faulty platform config response.1 response.2 :=
  respond_fault_iff platform config response.1 response.2 _ _

/-- A response with another status is rejected once it is logged. -/
theorem outcome_of_status {response : Transfer × Connection}
    (h : response.1.responseCode ≠ 200) : outcome platform config response =
      if logsNull platform response.1 then .error .undefined else .ok false := by
  unfold outcome respond onHttpResponse
  rw [if_pos h]
  split <;> rfl

theorem outcome_of_logsNull {response : Transfer × Connection}
    (h : logsNull platform response.1 = true) :
    outcome platform config response = .error .undefined := by
  unfold outcome respond onHttpResponse
  rw [if_pos h]

theorem countsOn_class {c : Counter} (hok : c ≠ .http200Received)
    (hnot : c ≠ .http304Received) (response : Transfer × Connection) :
    countsOn platform c response =
      (!logsNull platform response.1 && statusClass response.1.responseCode == some c) := by
  have hown : (statusOwn response.1.responseCode == some c) = false := by
    unfold statusOwn
    split_ifs <;> simp [hok.symm, hnot.symm]
  rw [countsOn, hown, Bool.or_false]

/-- No status is in the class of a status counted by itself. -/
theorem statusClass_ne {c : Counter} (h : c = .http200Received ∨ c = .http304Received)
    (responseCode : Int) : statusClass responseCode ≠ some c := by
  unfold statusClass
  rcases h with rfl | rfl <;> split_ifs <;> simp

theorem countsOn_ok (response : Transfer × Connection) :
    countsOn platform .http200Received response =
      (!logsNull platform response.1 && decide (response.1.responseCode = 200)) := by
  simp only [countsOn, beq_eq_false_iff_ne.mpr (statusClass_ne (Or.inl rfl) _), Bool.false_or,
    statusOwn]
  split_ifs <;> simp_all

theorem countsOn_notModified (response : Transfer × Connection) :
    countsOn platform .http304Received response =
      (!logsNull platform response.1 && decide (response.1.responseCode = 304)) := by
  simp only [countsOn, beq_eq_false_iff_ne.mpr (statusClass_ne (Or.inr rfl) _), Bool.false_or,
    statusOwn]
  split_ifs <;> simp_all

/-! ## Counting responses -/

theorem classes_le (l : List (Transfer × Connection)) :
    l.countP (countsOn platform .http1xxReceived) +
      l.countP (countsOn platform .http2xxReceived) +
      l.countP (countsOn platform .http3xxReceived) +
      l.countP (countsOn platform .http4xxReceived) +
      l.countP (countsOn platform .http5xxReceived) ≤ l.length := by
  induction l with
  | nil => simp
  | cons response l ih =>
    have hone : (if countsOn platform .http1xxReceived response then 1 else 0) +
        (if countsOn platform .http2xxReceived response then 1 else 0) +
        (if countsOn platform .http3xxReceived response then 1 else 0) +
        (if countsOn platform .http4xxReceived response then 1 else 0) +
        (if countsOn platform .http5xxReceived response then 1 else 0) ≤ 1 := by
      rw [countsOn_class (by simp) (by simp), countsOn_class (by simp) (by simp),
        countsOn_class (by simp) (by simp), countsOn_class (by simp) (by simp),
        countsOn_class (by simp) (by simp)]
      cases logsNull platform response.1 with
      | true => simp
      | false =>
        cases statusClass response.1.responseCode with
        | none => simp
        | some c => cases c <;> simp
    simp only [List.countP_cons, List.length_cons]
    omega

theorem countP_ok_le (l : List (Transfer × Connection)) :
    l.countP (countsOn platform .http200Received) ≤
      l.countP (countsOn platform .http2xxReceived) := by
  refine List.countP_mono_left fun response _ h => ?_
  rw [countsOn_ok, Bool.and_eq_true, decide_eq_true_eq] at h
  simp [countsOn, statusClass, h]

theorem countP_notModified_le (l : List (Transfer × Connection)) :
    l.countP (countsOn platform .http304Received) ≤
      l.countP (countsOn platform .http3xxReceived) := by
  refine List.countP_mono_left fun response _ h => ?_
  rw [countsOn_notModified, Bool.and_eq_true, decide_eq_true_eq] at h
  simp [countsOn, statusClass, h]

/-- A response with another status, once it is logged. -/
def statusRejected (platform : Platform) (response : Transfer × Connection) : Bool :=
  !logsNull platform response.1 && response.1.responseCode ≠ 200

/-- A response that ends in a fault after it is logged. -/
def failedLate (platform : Platform) (config : Config) (response : Transfer × Connection) : Bool :=
  !logsNull platform response.1 && !(outcome platform config response).isOk

/-- What is counted as malformed has another status or is rejected for its content. -/
theorem countP_malformed (l : List (Transfer × Connection)) :
    l.countP (outcome platform config · = .ok false) =
      l.countP (contentRejected platform config) + l.countP (statusRejected platform) := by
  induction l with
  | nil => rfl
  | cons response l ih =>
    have hstatus := @outcome_of_status platform config response
    have hnull := @outcome_of_logsNull platform config response
    have hone : (if outcome platform config response = .ok false then 1 else 0) =
        (if contentRejected platform config response then 1 else 0) +
          (if statusRejected platform response then 1 else 0) := by
      unfold contentRejected statusRejected
      cases hlogs : logsNull platform response.1 with
      | true => simp [hnull hlogs]
      | false =>
        by_cases hcode : response.1.responseCode = 200
        · simp [hcode]
        · simp [hcode, hstatus hcode, hlogs]
    simp only [List.countP_cons, decide_eq_true_eq] at ih ⊢
    omega

/-- A response with status 200 is accepted, or rejected for its content, or ends in a fault. -/
theorem countP_ok (l : List (Transfer × Connection)) :
    l.countP (countsOn platform .http200Received) =
      l.countP (contentRejected platform config) +
        l.countP (outcome platform config · = .ok true) +
        l.countP (failedLate platform config) := by
  induction l with
  | nil => rfl
  | cons response l ih =>
    have hstatus := @outcome_of_status platform config response
    have hnull := @outcome_of_logsNull platform config response
    have hone : (if countsOn platform .http200Received response then 1 else 0) =
        (if contentRejected platform config response then 1 else 0) +
          (if outcome platform config response = .ok true then 1 else 0) +
          (if failedLate platform config response then 1 else 0) := by
      rw [countsOn_ok]
      unfold contentRejected failedLate
      cases hlogs : logsNull platform response.1 with
      | true => simp [hnull hlogs]
      | false =>
        by_cases hcode : response.1.responseCode = 200
        · rcases outcome platform config response with e | accepted
          · simp [hcode, Except.isOk, Except.toBool]
          · cases accepted <;> simp [hcode, Except.isOk, Except.toBool]
        · simp [hcode, hstatus hcode, hlogs, Except.isOk, Except.toBool]
    simp only [List.countP_cons, decide_eq_true_eq] at ih ⊢
    omega

/-! ## The counters and the law -/

theorem ofNat_toNat {n : Nat} (h : n < 4294967296) : (BitVec.ofNat 32 n).toNat = n := by
  rw [BitVec.toNat_ofNat]
  omega

theorem Counted.toNat_status {p : State × Multi} (h : Counted platform config p)
    (hevents : p.1.log.length < 4294967296) {c : Counter} (hc : c.ofStatus = true) :
    (p.1.stats c).toNat = (responses p.1.log).countP (countsOn platform c) := by
  have hle := List.countP_le_length (p := countsOn platform c) (l := responses p.1.log)
  have hlog := responses_length_le p.1.log
  rw [h.status c hc]
  exact ofNat_toNat (by omega)

theorem Counted.toNat_malformed {p : State × Multi} (h : Counted platform config p)
    (hevents : p.1.log.length < 4294967296) : (p.1.stats .httpMalformed).toNat =
      (responses p.1.log).countP (contentRejected platform config) +
        (responses p.1.log).countP (statusRejected platform) := by
  have hle := List.countP_le_length (p := fun response =>
    decide (outcome platform config response = .ok false)) (l := responses p.1.log)
  have hlog := responses_length_le p.1.log
  rw [h.malformed, ofNat_toNat (by omega)]
  exact countP_malformed _

/-- Where every response that was read belongs to a counted request, the law holds of served
responses, and it holds of no others that are logged. -/
theorem Counted.accounts {p : State × Multi} (h : Counted platform config p)
    (hevents : p.1.log.length < 4294967296) :
    (p.2.ReadsCounted → (∀ response ∈ responses p.1.log, served platform config response) →
        Accounts platform config p.1) ∧
      (Accounts platform config p.1 → ∀ response ∈ responses p.1.log,
        logsNull platform response.1 = false → served platform config response) := by
  have hok := h.toNat_status hevents (c := .http200Received) rfl
  have hmalformed := h.toNat_malformed hevents
  have hsplit := @countP_ok platform config (responses p.1.log)
  have hrefreshed := h.refreshed
  have hstatus : (responses p.1.log).countP (statusRejected platform) = 0 ↔
      ∀ response ∈ responses p.1.log, logsNull platform response.1 = false →
        response.1.responseCode = 200 := by
    simp [List.countP_eq_zero, statusRejected]
  have hfaults : (responses p.1.log).countP (failedLate platform config) = 0 ↔
      ∀ response ∈ responses p.1.log, logsNull platform response.1 = false →
        ¬ faulty platform config response.1 response.2 := by
    simp only [List.countP_eq_zero, ← outcome_error_iff, failedLate]
    refine forall₂_congr fun response _ => ?_
    cases outcome platform config response <;> simp [Except.isOk, Except.toBool]
  constructor
  · intro hreads hserved
    have hnone := hstatus.mpr fun response hr _ => (hserved response hr).1
    have hfine := hfaults.mpr fun response hr _ => (hserved response hr).2
    obtain ⟨sent, hsent, hle, hread⟩ := h.sent
    have hrequests := List.countP_le_length (p := Obs.isRequest) (l := p.1.log)
    have hclasses := @classes_le platform (responses p.1.log)
    refine ⟨?_, ?_, ?_, by omega, by omega⟩
    · rw [h.toNat_status hevents rfl, h.toNat_status hevents rfl, h.toNat_status hevents rfl,
        h.toNat_status hevents rfl, h.toNat_status hevents rfl, hsent, ofNat_toNat (by omega)]
      have := hread hreads
      omega
    · rw [hok, h.toNat_status hevents rfl]
      exact countP_ok_le _
    · rw [h.toNat_status hevents rfl, h.toNat_status hevents rfl]
      exact countP_notModified_le _
  · intro haccounts response hr hlogs
    have hlaw := haccounts.malformed
    have hpublished := haccounts.published
    exact ⟨hstatus.mp (by omega) response hr hlogs, hfaults.mp (by omega) response hr hlogs⟩

/-! ## Runs -/

theorem counted_run (platform : Platform) (config : Config) (inputs : List PollerInput)
    (count : Nat) (connections : Nat → Connection) (provider : Provider) :
    let poller := (Poller.run platform config inputs (.init count connections provider)).2
    Counted platform config (poller.state, poller.multi) := by
  have hinv : PollerInvariant platform config fun _ p => Rested p ∧ Counted platform config p :=
    rested_invariant (J := fun _ => Counted platform config) (counted_invariant platform config)
      (fun td p h => h.congr (.of_log rfl rfl)) (fun p h => h.congr (.of_log rfl rfl))
      (fun counter hcounter p h => h.congr (by
        rcases hcounter with rfl | rfl <;> exact sameLedger_tally rfl (by simp) (by simp) 1 p.1))
      (fun _ h => h)
      (fun events p h => h.congr (.of_log rfl rfl))
  refine (@poller_invariant platform config _ hinv inputs (.init count connections provider)
    ⟨.of_clean rfl, ?_⟩).2
  exact ⟨fun _ _ => rfl, rfl, rfl, 0, rfl, le_rfl, fun _ => le_rfl⟩

/-- In every run of queries the counters account for the requests and the responses, where every
response has status 200 and is looked at without a fault, and belongs to a request that was
counted; with any other response they do not, unless the process came to undefined behaviour when
it logged that response. -/
theorem accounts_of_run (platform : Platform) (config : Config) (inputs : List PollerInput)
    (count : Nat) (connections : Nat → Connection) (provider : Provider)
    (hevents : (Poller.run platform config inputs
      (.init count connections provider)).2.state.log.length < 4294967296) :
    let poller := (Poller.run platform config inputs (.init count connections provider)).2
    (poller.multi.ReadsCounted →
        (∀ response ∈ responses poller.state.log, served platform config response) →
        Accounts platform config poller.state) ∧
      (Accounts platform config poller.state → ∀ response ∈ responses poller.state.log,
        logsNull platform response.1 = false → served platform config response) :=
  (counted_run platform config inputs count connections provider).accounts hevents

/-- A page is rejected for its content type. -/
theorem sample_accounts : Accounts boostPlatform sampleConfig (statusRun 200).state := by
  refine (accounts_of_run boostPlatform sampleConfig [statusTick 200] 1 sampleState.connections
    sampleState.provider (by decide +kernel)).1 (fun c own => ?_) fun response hresponse => ?_
  · have hops : (statusRun 200).multi.ops = [.close 0 true, .done 0 true true, .add 0] := by
      decide +kernel
    change HandleOp.done c false own ∉ (statusRun 200).multi.ops
    simp [hops]
  · have hall : ∀ response ∈ responses (statusRun 200).state.log,
        response.1.responseCode = 200 ∧ response.1.contentType = some "text/html".toList := by
      decide +kernel
    obtain ⟨hcode, hct⟩ := hall response hresponse
    refine ⟨hcode, ?_⟩
    rintro (⟨hnone, _⟩ | ⟨⟨_, ⟨contentType, hsome, hadmissible⟩, _⟩, _⟩)
    · rw [hct] at hnone
      cases hnone
    · rw [hct] at hsome
      cases hsome
      have hno : textPlain.isPrefixOf "text/html".toList = false := by decide
      rw [admissible, hno] at hadmissible
      cases hadmissible

/-- A page that was not found counts as malformed, although no response with status 200 was
rejected. -/
theorem not_found_counts_malformed :
    ¬ Accounts boostPlatform sampleConfig (statusRun 404).state := by
  intro h
  have hmalformed := h.malformed
  revert hmalformed
  decide +kernel

end Psych
