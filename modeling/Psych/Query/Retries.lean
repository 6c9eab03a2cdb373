import Psych.Query.RoundLog

/-!
# Retries

`retry_count` is how often to retry after a transient error: a timeout or an HTTP 5xx
response. The loop of `httpPsychQuery` retries every connection that is still pending,
whatever its outcome was.

The rule is stated about the log (`retryRule`), and holds of a query exactly when the
responses that are not accepted are transient where a retry follows, and are not all
answers of the server where none is left (`retries_transient_iff`).
-/

namespace Psych

open Faults (Chronicle)

/-! ## The rule -/

/-- A failure of the transport or an HTTP 5xx status. -/
def Transfer.transient (transfer : Transfer) : Prop :=
  transfer.result ≠ 0 ∨ (500 ≤ transfer.responseCode ∧ transfer.responseCode ≤ 599)

/-- A 3xx or 4xx answer. -/
def Transfer.answered (transfer : Transfer) : Prop :=
  transfer.result = 0 ∧ 300 ≤ transfer.responseCode ∧ transfer.responseCode ≤ 499

theorem not_answered_of_transient {transfer : Transfer} (h : transfer.transient) :
    ¬ transfer.answered := by
  rintro ⟨hresult, _, hle⟩
  rcases h with h | h
  · exact h hresult
  · omega

/-- The connection was requested, and its response was never accepted. -/
def unaccepted (c : Nat) (log : List Obs) : Prop :=
  (∃ request, .request c request ∈ log) ∧ ∀ transfer, .accept c transfer ∉ log

/-- The last outcome of a connection, if any, is transient. -/
def retriable (c : Nat) (log : List Obs) : Prop :=
  ∀ done, lastDone c log = some done → done.1.transient

/-- A connection that was not merely answered has no accepted response. -/
def owing (log : List Obs) : Prop :=
  ∃ c, unaccepted c log ∧ ∀ done, lastDone c log = some done → ¬ done.1.answered

/-- A connection is requested again only after a transient outcome, and the back-off and the
count of exceeded retries are not caused by answers alone. -/
def retryRule : Obs → List Obs → Prop
  | .request c _, older => retriable c older
  | .sleep _, older => owing older
  | .retriesExceeded, older => owing older
  | _, _ => True

/-- The entries of the round that is under way. -/
def thisRound (log : List Obs) : List Obs :=
  log.takeWhile fun o => match o with | .sleep _ => false | _ => true

/-- Where a retry follows, every response of the round was accepted or transient; where none
is left, some connection has a response that is neither accepted nor an answer, or none. -/
def retryCondition (platform : Platform) (config : Config) : Obs → List Obs → Prop
  | .sleep _, older => ∀ c transfer connection lastFiletime,
      .done c transfer connection lastFiletime ∈ thisRound older →
        accepts platform config transfer connection ∨ transfer.transient
  | .retriesExceeded, older => ∃ c request, .request c request ∈ thisRound older ∧
      ∀ transfer connection lastFiletime,
        .done c transfer connection lastFiletime ∈ thisRound older →
          ¬ accepts platform config transfer connection ∧ ¬ transfer.answered
  | _, _ => True

variable {platform : Platform} {config : Config}

/-! ## The rule over a round -/

/-- Where a round starts: what is pending is what was requested and not accepted. -/
structure RoundStart (q : Query) : Prop where
  nodup : q.pending.Nodup
  fresh : thisRound q.state.log = []
  onlyPending : ∀ c, unaccepted c q.state.log → c ∈ q.pending
  notAccepted : ∀ c ∈ q.pending, ∀ transfer, .accept c transfer ∉ q.state.log

variable {q : Query} {top requests old : List Obs}

theorem chronicle_requests (hrequests : ∀ o ∈ requests, ∃ c request, o = .request c request) :
    Chronicle retryRule (requests ++ old) ↔
      (∀ c request, .request c request ∈ requests → retriable c old) ∧
        Chronicle retryRule old := by
  induction requests with
  | nil => simp
  | cons o requests ih =>
    have hrest := fun x hx => hrequests x (List.mem_cons_of_mem _ hx)
    obtain ⟨c, request, rfl⟩ := hrequests o List.mem_cons_self
    have hnone : lastDone c requests = none := lastDone_eq_none fun x hx => by
      obtain ⟨_, _, rfl⟩ := hrest x hx
      trivial
    have hsame : retriable c (requests ++ old) ↔ retriable c old := by
      unfold retriable
      rw [lastDone_append, hnone, Option.none_or]
    rw [List.cons_append, Chronicle, ih hrest]
    change retriable c (requests ++ old) ∧ _ ↔ _
    rw [hsame]
    constructor
    · rintro ⟨hc, hall, hold⟩
      refine ⟨fun c' request' hmem => ?_, hold⟩
      rcases List.mem_cons.mp hmem with heq | hmem
      · cases heq
        exact hc
      · exact hall c' request' hmem
    · rintro ⟨hall, hold⟩
      exact ⟨hall c request List.mem_cons_self,
        fun c' request' hmem => hall c' request' (List.mem_cons_of_mem _ hmem), hold⟩

theorem RoundLog.chronicle_rule (h : RoundLog q top requests) :
    Chronicle retryRule ((top ++ requests) ++ old) ↔
      (∀ c ∈ q.pending, retriable c old) ∧ Chronicle retryRule old := by
  have htop : ∀ o ∈ top, ∀ older, retryRule o older := by
    intro o ho older
    have hkind := h.afterRequests o ho
    cases o <;> first | trivial | (rcases hkind with hb | ⟨_, _, heq⟩; exact hb.elim; cases heq)
  rw [List.append_assoc, Faults.chronicle_append htop, chronicle_requests fun o ho => by
    obtain ⟨c, _, request, heq⟩ := h.onlyPending o ho
    exact ⟨c, request, heq⟩]
  refine and_congr_left fun _ => ⟨fun hall c hc => ?_, fun hall c request hmem => ?_⟩
  · obtain ⟨request, hmem⟩ := h.allPending c hc
    exact hall c request hmem
  · obtain ⟨c', hc', request', heq⟩ := h.onlyPending _ hmem
    cases heq
    exact hall c hc'

/-- No entry of a round is a decision. -/
theorem RoundLog.undecided (h : RoundLog q top requests) :
    ∀ o ∈ top ++ requests, (∀ ms, o ≠ .sleep ms) ∧ o ≠ .retriesExceeded := by
  intro o ho
  rcases List.mem_append.mp ho with ho | ho
  · rcases h.afterRequests o ho with hb | ⟨_, _, rfl⟩
    · cases o <;> first | exact hb.elim | simp
    · simp
  · obtain ⟨_, _, _, rfl⟩ := h.onlyPending o ho
    simp

theorem RoundLog.chronicle_condition (h : RoundLog q top requests) :
    Chronicle (retryCondition platform config) ((top ++ requests) ++ old) ↔
      Chronicle (retryCondition platform config) old := by
  refine Faults.chronicle_append (fun o ho older => ?_) old
  obtain ⟨hsleep, hexceeded⟩ := h.undecided o ho
  cases o with
  | sleep ms => exact absurd rfl (hsleep ms)
  | retriesExceeded => exact absurd rfl hexceeded
  | request | header | done | refresh | accept => trivial

theorem RoundLog.thisRound (h : RoundLog q top requests) (hold : thisRound old = []) :
    thisRound ((top ++ requests) ++ old) = top ++ requests := by
  unfold Psych.thisRound at hold ⊢
  rw [List.takeWhile_append_of_pos, hold, List.append_nil]
  intro o ho
  cases o with
  | sleep ms => exact absurd rfl ((h.undecided _ ho).1 ms)
  | request | header | done | refresh | accept | retriesExceeded => rfl

theorem RoundLog.mem_request (h : RoundLog q top requests) {c : Nat} :
    (∃ request, .request c request ∈ top ++ requests) ↔ c ∈ q.pending := by
  constructor
  · rintro ⟨request, hmem⟩
    rcases List.mem_append.mp hmem with hmem | hmem
    · rcases h.afterRequests _ hmem with hb | ⟨_, _, heq⟩
      · exact hb.elim
      · cases heq
    · obtain ⟨c', hc', request', heq⟩ := h.onlyPending _ hmem
      cases heq
      exact hc'
  · intro hc
    obtain ⟨request, hmem⟩ := h.allPending c hc
    exact ⟨request, List.mem_append_right _ hmem⟩

/-! ## The decision after a round -/

/-- A round from its start to its end without a fault, in which only connections were
requested whose last outcome was transient. -/
structure Round (platform : Platform) (config : Config) (q q' : Query)
    (top requests : List Obs) : Prop where
  start : RoundStart q
  log : RoundLog q top requests
  done : RoundDone platform config q.pending q' (top ++ requests)
  eq : q'.state.log = (top ++ requests) ++ q.state.log
  retriable : ∀ c ∈ q.pending, retriable c q.state.log

variable {q' : Query}

theorem Round.unaccepted_iff (h : Round platform config q q' top requests) (c : Nat) :
    unaccepted c q'.state.log ↔ c ∈ q'.pending := by
  rw [h.done.remaining]
  unfold unaccepted
  rw [h.eq]
  simp only [List.mem_append (t := q.state.log), not_or, exists_or, h.log.mem_request, forall_and]
  constructor
  · rintro ⟨hreq, hno, hold⟩
    rcases hreq with hc | hreq
    · exact ⟨hc, hno⟩
    · exact ⟨h.start.onlyPending c ⟨hreq, hold⟩, hno⟩
  · rintro ⟨hc, hno⟩
    exact ⟨Or.inl hc, hno, h.start.notAccepted c hc⟩

/-- What is pending after the round was not accepted in it. -/
theorem Round.not_accepts (h : Round platform config q q' top requests) {c : Nat}
    (hc : c ∈ q'.pending) {done : Transfer × Connection}
    (hdone : lastDone c (top ++ requests) = some done) :
    ¬ accepts platform config done.1 done.2 := by
  intro hyes
  obtain ⟨transfer, hmem⟩ := h.done.accepted.mpr ⟨done, hdone, hyes⟩
  exact (h.done.remaining.mp hc).2 transfer hmem

/-- A connection that was not accepted in the round is pending after it. -/
theorem Round.mem_pending (h : Round platform config q q' top requests) {c : Nat}
    (hc : c ∈ q.pending) (hno : ∀ done, lastDone c (top ++ requests) = some done →
      ¬ accepts platform config done.1 done.2) : c ∈ q'.pending := by
  refine h.done.remaining.mpr ⟨hc, fun transfer hmem => ?_⟩
  obtain ⟨done, hdone, hyes⟩ := h.done.accepted.mp ⟨transfer, hmem⟩
  exact hno done hdone hyes

/-- The last outcome of a connection is that of the round, or of an earlier one. -/
theorem Round.lastDone_cases (h : Round platform config q q' top requests) (c : Nat) :
    (∃ done, lastDone c (top ++ requests) = some done ∧
      lastDone c q'.state.log = some done) ∨
    (lastDone c (top ++ requests) = none ∧
      lastDone c q'.state.log = lastDone c q.state.log) := by
  have hlast := lastDone_append c (top ++ requests) q.state.log
  rw [← h.eq] at hlast
  cases hl : lastDone c (top ++ requests) with
  | none =>
    rw [hl, Option.none_or] at hlast
    exact Or.inr ⟨rfl, hlast⟩
  | some done =>
    rw [hl, Option.some_or] at hlast
    exact Or.inl ⟨done, rfl, hlast⟩

/-- The condition on a retry says that what is pending is retriable. -/
theorem Round.sleep_iff (h : Round platform config q q' top requests) (ms : Int) :
    retryCondition platform config (.sleep ms) q'.state.log ↔
      ∀ c ∈ q'.pending, Psych.retriable c q'.state.log := by
  have hround : thisRound q'.state.log = top ++ requests := by
    rw [h.eq]
    exact h.log.thisRound h.start.fresh
  change (∀ c transfer connection lastFiletime,
    Obs.done c transfer connection lastFiletime ∈ Psych.thisRound q'.state.log → _) ↔ _
  rw [hround]
  constructor
  · intro hall c hc done hdone
    rcases h.lastDone_cases c with ⟨done', hnew, heq⟩ | ⟨_, heq⟩
    · rw [heq] at hdone
      cases hdone
      obtain ⟨f, hf⟩ := lastDone_mem hnew
      exact (hall c _ _ f hf).resolve_left (h.not_accepts hc hnew)
    · exact h.retriable c (h.done.remaining.mp hc).1 done (heq ▸ hdone)
  · intro hall c transfer connection f hmem
    obtain ⟨hc, hlast⟩ := h.done.done hmem
    by_cases hyes : accepts platform config transfer connection
    · exact Or.inl hyes
    · right
      have hpending : c ∈ q'.pending := h.mem_pending hc fun done hdone => by
        rw [hlast] at hdone
        cases hdone
        exact hyes
      apply hall c hpending (transfer, connection)
      rw [h.eq, lastDone_append, hlast]
      rfl

/-- The rule and the condition agree where no retry is left. -/
theorem Round.exceeded_iff (h : Round platform config q q' top requests) :
    retryRule .retriesExceeded q'.state.log ↔
      retryCondition platform config .retriesExceeded q'.state.log := by
  have hround : thisRound q'.state.log = top ++ requests := by
    rw [h.eq]
    exact h.log.thisRound h.start.fresh
  change Psych.owing q'.state.log ↔
    ∃ c request, Obs.request c request ∈ Psych.thisRound q'.state.log ∧ _
  rw [hround]
  constructor
  · rintro ⟨c, hun, hno⟩
    have hc := (h.unaccepted_iff c).mp hun
    obtain ⟨request, hmem⟩ := h.log.mem_request.mpr (h.done.remaining.mp hc).1
    refine ⟨c, request, hmem, fun transfer connection f hdone => ?_⟩
    have hlast := (h.done.done hdone).2
    refine ⟨h.not_accepts hc hlast, hno (transfer, connection) ?_⟩
    rw [h.eq, lastDone_append, hlast]
    rfl
  · rintro ⟨c, request, hmem, hno⟩
    have hc := h.log.mem_request.mp ⟨request, hmem⟩
    have hpending : c ∈ q'.pending := h.mem_pending hc fun done hdone => by
      obtain ⟨f, hf⟩ := lastDone_mem hdone
      exact (hno _ _ f hf).1
    refine ⟨c, (h.unaccepted_iff c).mpr hpending, fun done hdone => ?_⟩
    rcases h.lastDone_cases c with ⟨done', hnew, heq⟩ | ⟨_, heq⟩
    · rw [heq] at hdone
      cases hdone
      obtain ⟨f, hf⟩ := lastDone_mem hnew
      exact (hno _ _ f hf).2
    · exact not_answered_of_transient (h.retriable c hc done (heq ▸ hdone))

/-- Where something is pending and all of it is retriable, the back-off is owed. -/
theorem Round.owing (h : Round platform config q q' top requests) (hne : q'.pending ≠ [])
    (hall : ∀ c ∈ q'.pending, Psych.retriable c q'.state.log) : owing q'.state.log := by
  obtain ⟨c, hc⟩ := List.exists_mem_of_ne_nil _ hne
  exact ⟨c, (h.unaccepted_iff c).mpr hc,
    fun done hdone => not_answered_of_transient (hall c hc done hdone)⟩

/-- The next round starts after the back-off. -/
theorem Round.next (h : Round platform config q q' top requests) (ms : Int) :
    RoundStart (q'.observe (.sleep ms)) := by
  refine ⟨h.done.nodup, rfl, fun c hun => (h.unaccepted_iff c).mp ?_, fun c hc transfer hmem => ?_⟩
  · obtain ⟨⟨request, hmem⟩, hno⟩ := hun
    refine ⟨⟨request, ?_⟩, fun transfer hin => hno transfer (List.mem_cons_of_mem _ hin)⟩
    exact (List.mem_cons.mp hmem).resolve_left (by simp)
  · have hun := (h.unaccepted_iff c).mpr hc
    exact hun.2 transfer ((List.mem_cons.mp hmem).resolve_left (by simp))

/-! ## The query -/

/-- The round that a run of rounds begins with, if it ended without a fault and all that was
requested in it was retriable. -/
theorem queryRound_round (platform : Platform) (config : Config) (flags : QueryFlags) (t0 : Int)
    (input : RoundInput) (hq : RoundStart q) : ∃ top requests, RoundLog q top requests ∧
      (queryRound platform config flags t0 input q).2.state.log =
        (top ++ requests) ++ q.state.log ∧
      ((queryRound platform config flags t0 input q).1 = .ok () →
        (∀ c ∈ q.pending, retriable c q.state.log) →
        Round platform config q (queryRound platform config flags t0 input q).2 top requests) := by
  obtain ⟨top, requests, hround, hlog, hdone⟩ := queryRound_log platform config
    flags t0 input q hq.nodup
  exact ⟨top, requests, hround, hlog, fun hok hall => ⟨hq, hround, hdone hok, hlog, hall⟩⟩

/-- A log that meets the rule has requested only what was retriable. -/
theorem retriable_of_chronicle (flags : QueryFlags) (t0 : Int) (inputs : Nat → RoundInput)
    (retries : Nat) (sleep : Int) (n : Nat) (hq : RoundStart q)
    (h : Chronicle retryRule
      (queryRounds platform config flags t0 inputs retries sleep n q).2.state.log) :
    ∀ c ∈ q.pending, retriable c q.state.log := by
  obtain ⟨top, requests, hround, hlog, _⟩ := queryRound_round platform config
    flags t0 (inputs n) hq
  suffices hchronicle : Chronicle retryRule
      (queryRound platform config flags t0 (inputs n) q).2.state.log by
    rw [hlog] at hchronicle
    exact (hround.chronicle_rule.mp hchronicle).1
  rcases queryRounds_cases platform config flags t0 inputs retries sleep n q with
    ⟨heq, _⟩ | ⟨_, _, heq⟩ | ⟨_, _, left, _, heq⟩
  · exact heq ▸ h
  · rw [heq] at h
    exact h.2
  · rw [heq] at h
    obtain ⟨new, hnew⟩ := queryRounds_log platform config flags t0
      inputs left (nextSleep config sleep) (n + 1)
      ((queryRound platform config flags t0 (inputs n) q).2.observe (.sleep sleep))
    rw [hnew] at h
    exact h.of_append.2

/-- The rule and the condition agree on a run of rounds if they agree where it starts. -/
theorem queryRounds_retries (platform : Platform) (config : Config) (flags : QueryFlags)
    (t0 : Int) (inputs : Nat → RoundInput) (retries : Nat) (sleep : Int) (n : Nat) (hq : RoundStart q)
    (hall : ∀ c ∈ q.pending, retriable c q.state.log)
    (hagree : Chronicle retryRule q.state.log ↔
      Chronicle (retryCondition platform config) q.state.log) :
    Chronicle retryRule
        (queryRounds platform config flags t0 inputs retries sleep n q).2.state.log ↔
      Chronicle (retryCondition platform config)
        (queryRounds platform config flags t0 inputs retries sleep n q).2.state.log := by
  induction retries using Nat.strong_induction_on generalizing sleep n q with
  | _ retries ih =>
    obtain ⟨top, requests, hlogs, hlog, hround⟩ := queryRound_round platform
      config flags t0 (inputs n) hq
    have hafter : Chronicle retryRule
          (queryRound platform config flags t0 (inputs n) q).2.state.log ↔
        Chronicle (retryCondition platform config)
          (queryRound platform config flags t0 (inputs n) q).2.state.log := by
      rw [hlog, hlogs.chronicle_rule, hlogs.chronicle_condition, and_iff_right hall, hagree]
    rcases queryRounds_cases platform config flags t0 inputs retries sleep n q with
      ⟨heq, _⟩ | ⟨hok, _, heq⟩ | ⟨hok, hne, left, hleft, heq⟩
    · rw [heq]
      exact hafter
    · rw [heq]
      exact and_congr (hround hok hall).exceeded_iff hafter
    · have hr := hround hok hall
      have hstart := hr.next sleep
      rw [heq]
      by_cases hnext : ∀ c ∈ (queryRound platform config flags t0 (inputs n) q).2.pending,
          retriable c (queryRound platform config flags t0 (inputs n) q).2.state.log
      · apply ih left (by omega) _ _ hstart hnext
        exact and_congr (iff_of_true (hr.owing hne hnext) ((hr.sleep_iff sleep).mpr hnext)) hafter
      -- something is requested again that is not retriable: both fail
      · refine iff_of_false (fun h => hnext ?_) (fun h => hnext ?_)
        · have hagain := retriable_of_chronicle flags t0 inputs left (nextSleep config sleep)
            (n + 1) hstart h
          exact hagain
        · obtain ⟨new, hnew⟩ := queryRounds_log platform config flags t0
            inputs left (nextSleep config sleep) (n + 1)
            ((queryRound platform config flags t0 (inputs n) q).2.observe (.sleep sleep))
          rw [hnew] at h
          exact (hr.sleep_iff sleep).mp h.of_append.1

/-- In a query only transient failures are retried, and answers of the server neither cause a
back-off nor exceed the retries, exactly when each time the loop goes on all responses of the
round were accepted or transient, and each time it gives up some connection of the round was
neither accepted nor answered. -/
theorem retries_transient_iff (platform : Platform) (config : Config) (flags : QueryFlags)
    (input : QueryInput) (p : State) :
    Chronicle retryRule (queryLog platform config flags input p) ↔
      Chronicle (retryCondition platform config) (queryLog platform config flags input p) := by
  have hstart : RoundStart { state := { p with log := [] }, pending := List.range p.count } :=
    ⟨List.nodup_range, rfl, fun c h => by simp [unaccepted] at h, fun c _ transfer h => by cases h⟩
  have hrounds := queryRounds_retries platform config flags input.t0
    input.rounds (atol config.retryCount).toNat (firstSleep config) 0 hstart
    (fun c _ done h => by cases h) Iff.rfl
  rw [queryLog, httpPsychQuery_log]
  exact hrounds

/-! ## Not modified -/

/-- The last outcome of the connection that was requested last, before that request. -/
def lastRetried : List Obs → Option Transfer
  | [] => none
  | .request c _ :: older => (lastDone c older).map Prod.fst
  | _ :: older => lastRetried older

theorem transient_of_lastRetried {log : List Obs} (h : Chronicle retryRule log)
    {transfer : Transfer} (hlast : lastRetried log = some transfer) : transfer.transient := by
  induction log with
  | nil => cases hlast
  | cons o older ih =>
    cases o with
    | request c request =>
      obtain ⟨done, hdone, rfl⟩ := Option.map_eq_some_iff.mp hlast
      exact h.1 done hdone
    | header | done | refresh | accept | sleep | retriesExceeded => exact ih h.2 hlast

def retryingConfig : Config := { sampleConfig with retryCount := "1".toList }

/-- The server's answer where the file is not newer. -/
def notModified : Transfer where
  responseCode := 304
  contentType := some "text/plain".toList

def quietQuery : QueryInput where
  t0 := 1336080000000000
  t1 := 1336080000000000
  rounds _ := { order := [0], report := fun _ => { transfer := notModified } }

set_option maxRecDepth 10000 in
/-- A connection whose file is not modified is requested again. -/
theorem not_modified_is_retried :
    ¬ Chronicle retryRule
      (queryLog boostPlatform retryingConfig timerFlags quietQuery sampleState) := by
  intro h
  have hlast : lastRetried
      (queryLog boostPlatform retryingConfig timerFlags quietQuery sampleState) =
        some notModified := by decide
  rcases transient_of_lastRetried h hlast with hresult | ⟨hstatus, _⟩
  · exact hresult rfl
  · exact absurd hstatus (by decide)

end Psych
