import Psych.Library.Loops
import Psych.Query.Ledger

/-!
# The rounds of a query and the sleeps between them

The loop of `httpPsychQuery` is `for (;;)` with two breaks and a `continue` (`retryBody`); a
configured number of retries bounds it, and `queryRounds` is what it computes
(`queryRounds_of_passes`). Between two rounds, and only there, it sleeps: for the configured delay,
or from a second on twice as long each time, up to ten minutes (`query_backs_off`).
-/

namespace Psych

/-! ## The loop as it is written -/

/-- The variables of the loop; `retry_numretries` and `retry_sleep` are `long`. -/
structure Retrying where
  query : Query
  numRetries : Int
  sleep : Int

/-- The variables before the first round. -/
def Retrying.start (config : Config) (p : State) : Retrying where
  query := { state := p, pending := List.range p.count }
  numRetries := atol config.retryCount
  sleep := firstSleep config

/-- `retry_sleep *= 2`, capped, where no delay is configured. -/
def doubleSleep (config : Config) (sleep : Int) : Int :=
  if atol config.retryDelayMs = 0 then
    if retrySleepMax < toLong (sleep * 2) then retrySleepMax else toLong (sleep * 2)
  else sleep

/-- The body of the loop. -/
def retryBody (platform : Platform) (config : Config) (flags : QueryFlags) (input : QueryInput)
    (n : Nat) (s : Retrying) : Retrying ⊕ (Except Fault Unit × Query) :=
  match queryRound platform config flags input.t0 (input.rounds n) s.query with
  | (.error e, q) => .inr (.error e, q)
  | (.ok (), q) =>
    if q.pending.isEmpty then .inr (.ok (), q)
    else if 0 < s.numRetries ∧ inTime config input.t0 (input.rounds n).clock = true then
      .inl { query := q.observe (.sleep s.sleep)
             numRetries := toLong (s.numRetries - 1)
             sleep := doubleSleep config s.sleep }
    else .inr (.ok (), q.abortTransfer)

/-- What follows the loop. -/
def QueryInput.finish (input : QueryInput) : Except Fault Unit × Query → Except Fault Unit × State
  | (.error e, q) => (.error e, q.state)
  | (.ok (), q) => (.ok (), q.state.cleanup.recordTime (input.t1 - input.t0))

/-! ## What is due -/

/-- The `k`th sleep. -/
def dueSleep (config : Config) (k : Nat) : Int :=
  if atol config.retryDelayMs = 0 then min (1000 * 2 ^ k) 600000 else atol config.retryDelayMs

/-- The sleeps in a log, in order. -/
def slept (log : List Obs) : List Int :=
  log.reverse.filterMap fun o => match o with | .sleep milliseconds => some milliseconds | _ => none

/-- How a query retries: `starts` are the variables at the start of each round, `r` is what the
loop leaves with, and `p` and `p'` are the states before and after the query. -/
structure BacksOff (config : Config) (starts : List Retrying) (r : Except Fault Unit × Query)
    (p p' : State) : Prop where
  rounds : (starts.length : Int) ≤ 1 + max 0 (atol config.retryCount)
  /-- One sleep for every round but the first, as long as is due. -/
  sleeps : slept p'.log = slept p.log ++ (List.range (starts.length - 1)).map (dueSleep config)
  /-- A sleep is the last that was done before the round after it. -/
  between : ∀ k s, starts[k + 1]? = some s →
    s.query.state.log.head? = some (.sleep (dueSleep config k))
  /-- The sleep is doubled within a `long`. -/
  fits : ∀ s ∈ starts, atol config.retryDelayMs = 0 → toLong (s.sleep * 2) = s.sleep * 2
  /-- The count of exceeded retries grows where the loop ends with something pending. -/
  exceeded : p'.stats .httpRetriesExceeded = p.stats .httpRetriesExceeded +
    if r.1 = .ok () ∧ r.2.pending ≠ [] then 1 else 0

theorem slept_append (new old : List Obs) : slept (new ++ old) = slept old ++ slept new := by
  rw [slept, List.reverse_append, List.filterMap_append]
  rfl

theorem slept_eq_nil {log : List Obs} (h : ∀ ms, .sleep ms ∉ log) : slept log = [] := by
  refine List.filterMap_eq_nil_iff.mpr fun o ho => ?_
  cases o with
  | sleep ms => exact absurd (List.mem_reverse.mp ho) (h ms)
  | request | header | done | refresh | accept | retriesExceeded => rfl

variable {platform : Platform} {config : Config} {flags : QueryFlags} {input : QueryInput}

/-! ## The delay -/

theorem dueSleep_zero (config : Config) : dueSleep config 0 = firstSleep config := by
  unfold dueSleep firstSleep retrySleepDefault
  by_cases hdelay : atol config.retryDelayMs = 0
  · simp [hdelay]
  · simp [hdelay]

theorem dueSleep_fits (h : atol config.retryDelayMs = 0) (k : Nat) :
    toLong (dueSleep config k * 2) = dueSleep config k * 2 := by
  have hpos : (0 : Int) < 1000 * 2 ^ k := by positivity
  unfold dueSleep
  rw [if_pos h]
  exact Int.bmod_eq_of_le (by omega) (by omega)

/-- The doubling keeps to what is due. -/
theorem doubleSleep_due (config : Config) (k : Nat) :
    doubleSleep config (dueSleep config k) = dueSleep config (k + 1) := by
  unfold doubleSleep
  by_cases hdelay : atol config.retryDelayMs = 0
  · rw [if_pos hdelay, dueSleep_fits hdelay]
    unfold dueSleep retrySleepMax
    rw [if_pos hdelay, if_pos hdelay, pow_succ]
    generalize (2 : Int) ^ k = power
    split <;> omega
  · rw [if_neg hdelay]
    unfold dueSleep
    rw [if_neg hdelay, if_neg hdelay]

/-- The model of the query and the loop as it is written double alike. -/
theorem nextSleep_due (config : Config) (k : Nat) :
    nextSleep config (dueSleep config k) = dueSleep config (k + 1) := by
  rw [← doubleSleep_due]
  unfold nextSleep doubleSleep
  by_cases hdelay : atol config.retryDelayMs = 0
  · rw [if_pos hdelay, if_pos hdelay, dueSleep_fits hdelay]
    split <;> omega
  · rw [if_neg hdelay, if_neg hdelay]

/-! ## A round -/

/-- No step of a round counts exceeded retries. -/
theorem queryRound_exceeded (platform : Platform) (config : Config) (flags : QueryFlags) (t0 : Int)
    (input : RoundInput) (q : Query) :
    (queryRound platform config flags t0 input q).2.state.stats .httpRetriesExceeded =
      q.state.stats .httpRetriesExceeded := by
  have hprepared := (@prepare_requests platform config flags t0 input.easyInit q.pending q.state).1
  have htransfers := @transfers_stats platform input q.pending.length
    (q.pending.foldl (prepare platform config flags t0 input.easyInit) q.state)
  rw [hprepared] at htransfers
  have hperformed : (transfers platform input q.pending.length
      (q.pending.foldl (prepare platform config flags t0 input.easyInit) q.state)).2.stats
        .httpRetriesExceeded = q.state.stats .httpRetriesExceeded := by
    rw [htransfers]
    split <;> rfl
  have hmessage : ∀ message q, (handleMessage platform config message q).2.state.stats
      .httpRetriesExceeded = q.state.stats .httpRetriesExceeded := by
    intro message q
    rw [message_stats message q rfl, responseCount_of_other rfl, if_neg (by simp)]
    exact BitVec.add_zero _
  have hmessages := Faults.forEach_rel
    (fun q q' : Query => q'.state.stats .httpRetriesExceeded = q.state.stats .httpRetriesExceeded)
    (fun _ => rfl) (fun _ _ _ h h' => h'.trans h) hmessage
  rcases queryRound_cases platform config flags t0 input q with ⟨e, _, heq⟩ | ⟨_, heq⟩
  · rw [heq]
    exact hperformed
  · rw [heq]
    exact (hmessages _ _).trans hperformed

/-- A round does not sleep. -/
theorem queryRound_sleeps (platform : Platform) (config : Config) (flags : QueryFlags) (t0 : Int)
    (input : RoundInput) {q : Query} (hnodup : q.pending.Nodup) :
    slept (queryRound platform config flags t0 input q).2.state.log = slept q.state.log ∧
      ((queryRound platform config flags t0 input q).1 = .ok () →
        (queryRound platform config flags t0 input q).2.pending.Nodup) := by
  obtain ⟨top, requests, hround, hlog, hdone⟩ := queryRound_log platform config flags t0 input q
    hnodup
  refine ⟨?_, fun hok => (hdone hok).nodup⟩
  have hnone : slept (top ++ requests) = [] := by
    refine slept_eq_nil fun ms hms => ?_
    rcases List.mem_append.mp hms with htop | hrequest
    · rcases hround.afterRequests _ htop with hresponse | ⟨_, _, heq⟩
      · exact hresponse
      · cases heq
    · obtain ⟨_, _, _, heq⟩ := hround.onlyPending _ hrequest
      cases heq
  rw [hlog, slept_append, hnone, List.append_nil]

/-! ## The loop -/

/-- A pass leaves after a fault, with nothing pending, or without a retry; or it sleeps. -/
theorem retryBody_cases (platform : Platform) (config : Config) (flags : QueryFlags)
    (input : QueryInput) (n : Nat) (s : Retrying) :
    let round := queryRound platform config flags input.t0 (input.rounds n) s.query
    let body := retryBody platform config flags input n s
    (body = .inr round ∧ (round.1 = .ok () → round.2.pending = [])) ∨
    (round.1 = .ok () ∧ round.2.pending ≠ [] ∧
      ¬ (0 < s.numRetries ∧ inTime config input.t0 (input.rounds n).clock = true) ∧
      body = .inr (.ok (), round.2.abortTransfer)) ∨
    (round.1 = .ok () ∧ round.2.pending ≠ [] ∧
      (0 < s.numRetries ∧ inTime config input.t0 (input.rounds n).clock = true) ∧
      body = .inl ⟨round.2.observe (.sleep s.sleep), toLong (s.numRetries - 1),
        doubleSleep config s.sleep⟩) := by
  dsimp only
  unfold retryBody
  cases hr : queryRound platform config flags input.t0 (input.rounds n) s.query with
  | mk r q =>
    cases r with
    | error e => exact Or.inl ⟨rfl, fun h => by cases h⟩
    | ok _ =>
      dsimp only
      by_cases hempty : q.pending = []
      · rw [if_pos (by rw [hempty]; rfl)]
        exact Or.inl ⟨rfl, fun _ => hempty⟩
      · rw [if_neg (by rw [List.isEmpty_iff]; exact hempty)]
        right
        split
        · rename_i hretry
          exact Or.inr ⟨rfl, hempty, hretry, rfl⟩
        · rename_i hretry
          exact Or.inl ⟨rfl, hempty, hretry, rfl⟩

theorem toLong_le_self {x : Int} (h : 0 ≤ x) : toLong x ≤ x := by
  unfold toLong
  rw [Int.bmod_def]
  split <;> omega

/-- The loop ends: every retry takes one from `retry_numretries`. -/
theorem exists_retries (platform : Platform) (config : Config) (flags : QueryFlags)
    (input : QueryInput) (s : Retrying) : ∃ starts r,
      Loops.Passes (retryBody platform config flags input) 0 s starts r ∧
        starts.length ≤ s.numRetries.toNat + 1 := by
  refine Loops.exists_passes (fun s => s.numRetries.toNat) (fun {n s t} hbody => ?_) 0 s
  rcases retryBody_cases platform config flags input n s with
    ⟨heq, _⟩ | ⟨_, _, _, heq⟩ | ⟨_, _, hretry, heq⟩
  · rw [hbody] at heq
    cases heq
  · rw [hbody] at heq
    cases heq
  · rw [hbody, Sum.inl.injEq] at heq
    subst heq
    have hle := @toLong_le_self (s.numRetries - 1) (by omega)
    dsimp only
    omega

/-- After a round `queryRounds` does what the body of the loop does. -/
theorem queryRounds_body (platform : Platform) (config : Config) (flags : QueryFlags)
    (input : QueryInput) (n : Nat) (s : Retrying) :
    queryRounds platform config flags input.t0 input.rounds s.numRetries.toNat s.sleep n s.query =
      match retryBody platform config flags input n s with
      | .inr r => r
      | .inl t => queryRounds platform config flags input.t0 input.rounds
          (s.numRetries - 1).toNat (nextSleep config s.sleep) (n + 1) t.query := by
  have hloop := queryRounds.eq_def platform config flags input.t0 input.rounds
    s.numRetries.toNat s.sleep n s.query
  dsimp only at hloop
  rw [hloop]
  unfold retryBody
  cases queryRound platform config flags input.t0 (input.rounds n) s.query with
  | mk out q =>
    cases out with
    | error e => rfl
    | ok _ =>
      dsimp only
      by_cases hempty : q.pending.isEmpty = true
      · rw [if_pos hempty, if_pos hempty]
      · rw [if_neg hempty, if_neg hempty]
        cases hnum : s.numRetries.toNat with
        | zero => rw [if_neg fun h => by omega]
        | succ retries =>
          have hless : (s.numRetries - 1).toNat = retries := by omega
          dsimp only
          by_cases htime : inTime config input.t0 (input.rounds n).clock = true
          · rw [if_pos htime, if_pos ⟨by omega, htime⟩, hless]
          · rw [if_neg htime, if_neg fun h => htime h.2]

/-- `queryRounds` leaves with what the loop leaves with. -/
theorem queryRounds_of_passes {n : Nat} {s : Retrying} {starts : List Retrying}
    {r : Except Fault Unit × Query}
    (h : Loops.Passes (retryBody platform config flags input) n s starts r)
    (hsleep : s.sleep = dueSleep config n) (hmax : s.numRetries ≤ longMax) :
    queryRounds platform config flags input.t0 input.rounds s.numRetries.toNat s.sleep n s.query =
      r := by
  induction h with
  | leave hbody => rw [queryRounds_body, hbody]
  | @again n s t starts r hbody _ ih =>
    rw [queryRounds_body, hbody]
    dsimp only
    rcases retryBody_cases platform config flags input n s with
      ⟨heq, _⟩ | ⟨_, _, _, heq⟩ | ⟨_, _, hretry, heq⟩
    · rw [hbody] at heq
      cases heq
    · rw [hbody] at heq
      cases heq
    · rw [hbody, Sum.inl.injEq] at heq
      subst heq
      unfold longMax at hmax
      have hless : toLong (s.numRetries - 1) = s.numRetries - 1 :=
        Int.bmod_eq_of_le (by omega) (by omega)
      have hdouble : nextSleep config s.sleep = doubleSleep config s.sleep := by
        rw [hsleep, nextSleep_due, doubleSleep_due]
      have hrest := ih (by rw [hsleep]; exact doubleSleep_due config n)
        (by dsimp only; rw [hless]; unfold longMax; omega)
      dsimp only at hrest
      rw [hdouble, ← hless]
      exact hrest

/-! ## The query -/

/-- The variables at the start of the `k`th round of a query that began in the state `p`. -/
structure RetryInvariant (config : Config) (p : State) (k : Nat) (s : Retrying) : Prop where
  sleep : s.sleep = dueSleep config k
  retries : s.numRetries = atol config.retryCount - k
  budget : k = 0 ∨ 0 ≤ s.numRetries
  nodup : s.query.pending.Nodup
  sleeps : slept s.query.state.log = slept p.log ++ (List.range k).map (dueSleep config)
  between : ∀ i, k = i + 1 → s.query.state.log.head? = some (.sleep (dueSleep config i))
  exceeded : s.query.state.stats .httpRetriesExceeded = p.stats .httpRetriesExceeded

/-- What the loop leaves with after the `k`th round. -/
structure RetryEnd (config : Config) (p : State) (k : Nat) (r : Except Fault Unit × Query) :
    Prop where
  sleeps : slept r.2.state.log = slept p.log ++ (List.range k).map (dueSleep config)
  exceeded : r.2.state.stats .httpRetriesExceeded = p.stats .httpRetriesExceeded +
    if r.1 = .ok () ∧ r.2.pending ≠ [] then 1 else 0

theorem start_retryInvariant (config : Config) (p : State) :
    RetryInvariant config p 0 (.start config p) where
  sleep := (dueSleep_zero config).symm
  retries := (sub_zero _).symm
  budget := Or.inl rfl
  nodup := List.nodup_range
  sleeps := (List.append_nil _).symm
  between := fun i h => by cases h
  exceeded := rfl

variable {p : State} {k : Nat} {s t : Retrying} {r : Except Fault Unit × Query}

/-- A round followed by a sleep keeps the invariant. -/
theorem RetryInvariant.again (h : RetryInvariant config p k s)
    (hbody : retryBody platform config flags input k s = .inl t) :
    RetryInvariant config p (k + 1) t := by
  obtain ⟨hsleeps, hnodup⟩ := queryRound_sleeps platform config flags input.t0 (input.rounds k)
    h.nodup
  rcases retryBody_cases platform config flags input k s with
    ⟨heq, _⟩ | ⟨_, _, _, heq⟩ | ⟨hok, _, hretry, heq⟩
  · rw [hbody] at heq
    cases heq
  · rw [hbody] at heq
    cases heq
  rw [hbody, Sum.inl.injEq] at heq
  subst heq
  have hmax := atol_le config.retryCount
  have hretries := h.retries
  unfold longMax at hmax
  have hless : toLong (s.numRetries - 1) = s.numRetries - 1 :=
    Int.bmod_eq_of_le (by omega) (by omega)
  refine ⟨?_, ?_, Or.inr ?_, hnodup hok, ?_, fun i hi => ?_, ?_⟩
  · dsimp only
    rw [h.sleep, doubleSleep_due]
  · dsimp only
    rw [hless, h.retries]
    omega
  · dsimp only
    rw [hless]
    omega
  · have hslept : slept (.sleep s.sleep :: (queryRound platform config flags input.t0
        (input.rounds k) s.query).2.state.log) = _ := slept_append [.sleep s.sleep] _
    change slept (.sleep s.sleep :: (queryRound platform config flags input.t0
        (input.rounds k) s.query).2.state.log) = _
    rw [hslept, hsleeps, h.sleeps, h.sleep, List.range_succ, List.map_append, List.append_assoc]
    rfl
  · obtain rfl := Nat.succ.inj hi
    exact congrArg (fun ms => some (Obs.sleep ms)) h.sleep
  · exact (queryRound_exceeded platform config flags input.t0 (input.rounds k) s.query).trans
      h.exceeded

/-- A round after which the loop is left. -/
theorem RetryInvariant.leave (h : RetryInvariant config p k s)
    (hbody : retryBody platform config flags input k s = .inr r) : RetryEnd config p k r := by
  obtain ⟨hsleeps, _⟩ := queryRound_sleeps platform config flags input.t0 (input.rounds k)
    h.nodup
  have hexceeded := (queryRound_exceeded platform config flags input.t0 (input.rounds k)
    s.query).trans h.exceeded
  rcases retryBody_cases platform config flags input k s with
    ⟨heq, hempty⟩ | ⟨_, hne, _, heq⟩ | ⟨_, _, _, heq⟩
  · rw [hbody, Sum.inr.injEq] at heq
    subst heq
    refine ⟨hsleeps.trans h.sleeps, hexceeded.trans ?_⟩
    rw [if_neg fun hleft => hleft.2 (hempty hleft.1)]
    exact (BitVec.add_zero _).symm
  · rw [hbody, Sum.inr.injEq] at heq
    subst heq
    refine ⟨?_, ?_⟩
    · have hundefined : slept (.retriesExceeded :: (queryRound platform config flags input.t0
          (input.rounds k) s.query).2.state.log) = _ := slept_append [.retriesExceeded] _
      change slept (.retriesExceeded :: (queryRound platform config flags input.t0
          (input.rounds k) s.query).2.state.log) = _
      rw [hundefined, ← h.sleeps, ← hsleeps]
      exact List.append_nil _
    · rw [if_pos ⟨rfl, hne⟩, ← hexceeded]
      rfl
  · rw [hbody] at heq
    cases heq

/-- A query makes at most one round more than the retries that are configured, sleeps between two
rounds for as long as is due, and counts exceeded retries where its loop ends with something
pending. -/
theorem query_backs_off (platform : Platform) (config : Config) (flags : QueryFlags)
    (input : QueryInput) (p : State) : ∃ starts r,
      Loops.Passes (retryBody platform config flags input) 0 (.start config p) starts r ∧
        httpPsychQuery platform config flags input p = input.finish r ∧
        BacksOff config starts r p (httpPsychQuery platform config flags input p).2 := by
  obtain ⟨starts, r, hpasses, hlength⟩ := exists_retries platform config flags input
    (.start config p)
  obtain ⟨hstarts, hend⟩ := hpasses.invariant (RetryInvariant config p) (RetryEnd config p)
    RetryInvariant.again RetryInvariant.leave (start_retryInvariant config p)
  have hquery : httpPsychQuery platform config flags input p = input.finish r := by
    have hrounds : queryRounds platform config flags input.t0 input.rounds
        (atol config.retryCount).toNat (firstSleep config) 0
        { state := p, pending := List.range p.count } = r :=
      queryRounds_of_passes hpasses (dueSleep_zero config).symm (atol_le config.retryCount)
    unfold httpPsychQuery
    rw [hrounds]
    rfl
  have hfinish : (input.finish r).2.log = r.2.state.log ∧
      (input.finish r).2.stats = r.2.state.stats := by
    obtain ⟨out, q⟩ := r
    cases out <;> exact ⟨rfl, rfl⟩
  rw [Nat.zero_add] at hend
  refine ⟨starts, r, hpasses, hquery, ?_⟩
  rw [hquery]
  refine ⟨?_, ?_, fun k s hs => ?_, fun s hs hdelay => ?_, ?_⟩
  · change starts.length ≤ (atol config.retryCount).toNat + 1 at hlength
    omega
  · rw [hfinish.1]
    exact hend.sleeps
  · exact (hstarts (k + 1) s hs).between k (Nat.zero_add _)
  · obtain ⟨k, hk⟩ := List.mem_iff_getElem?.mp hs
    rw [(hstarts k s hk).sleep]
    exact dueSleep_fits hdelay _
  · rw [hfinish.2]
    exact hend.exceeded

end Psych
