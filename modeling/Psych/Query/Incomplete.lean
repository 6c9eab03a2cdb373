import Psych.Query.Emissions

/-!
# Incomplete transfers

A refresh is to be built from a whole response body only. The result of a transfer is never
looked at, so an incomplete transfer is turned away only where the checks of
`OnHttpResponse` happen to stop it (`complete_only_iff`).
-/

namespace Psych

/-- A transfer is complete when its result is `CURLE_OK`. -/
def Transfer.complete (transfer : Transfer) : Prop := transfer.result = 0

/-- An entry of the log keeps the rule: tables are published, connections removed and file
times moved by complete transfers only. -/
def completeOnly : Obs → Prop
  | .refresh _ transfer .. => transfer.complete
  | .accept _ transfer => transfer.complete
  | .done _ transfer connection lastFiletime =>
    ¬ transfer.complete → lastFiletime = connection.lastFiletime
  | _ => True

/-- The response moves the file time of its connection. -/
def movesFiletime (config : Config) (transfer : Transfer) (connection : Connection) : Prop :=
  reachesTable config transfer connection ∧ transfer.filetime ≠ -1 ∧
    transfer.filetime ≠ connection.lastFiletime

/-- The response of an incomplete transfer is stopped: it neither moves the file time nor is
accepted. -/
def turnedAway (platform : Platform) (config : Config) : Obs → Prop
  | .done _ transfer connection _ => ¬ transfer.complete →
    ¬ movesFiletime config transfer connection ∧ ¬ accepts platform config transfer connection
  | _ => True

variable {platform : Platform} {config : Config}

theorem respond_lastFiletime_iff (platform : Platform) (config : Config) (transfer : Transfer)
    (connection : Connection) (stats : Stats) (engineVersion : Text) :
    (respond platform config transfer connection stats engineVersion).2.connection.lastFiletime =
      connection.lastFiletime ↔ ¬ movesFiletime config transfer connection := by
  unfold movesFiletime
  by_cases hreach : reachesTable config transfer connection
  · rw [(respond_of_reaches hreach platform stats engineVersion).2.1]
    simp only [filetimeAfter, hreach, true_and]
    split
    · simp [*]
    · simp [*]
  · rw [(respond_of_not_reaches hreach platform stats engineVersion).2]
    exact iff_of_true rfl fun h => hreach h.1

/-- The entries of one message keep the rule exactly when its response is turned away. -/
theorem message_complete_only {message : Nat × Report} {q : Query}
    {r : Except Fault Unit × Query} (h : Handled platform config message q r) :
    Faults.Emits (fun q : Query => q.state.log)
      (Faults.matching completeOnly (turnedAway platform config)) q r := by
  have haccepts := respond_accepts_iff platform config message.2.transfer
    (q.state.connections message.1) q.state.stats q.engineVersion
  have hdone : completeOnly (q.doneObs platform config message) ↔
      (¬ message.2.transfer.complete →
        ¬ movesFiletime config message.2.transfer (q.state.connections message.1)) :=
    imp_congr_right fun _ => respond_lastFiletime_iff _ _ _ _ _ _
  have haway : turnedAway platform config (q.doneObs platform config message) ↔
      (¬ message.2.transfer.complete →
        ¬ movesFiletime config message.2.transfer (q.state.connections message.1) ∧
          ¬ accepts platform config message.2.transfer (q.state.connections message.1)) := Iff.rfl
  have hrefresh : completeOnly (q.refreshObs platform config message) ↔
      message.2.transfer.complete := Iff.rfl
  have hrefresh' : turnedAway platform config (q.refreshObs platform config message) ↔ True :=
    Iff.rfl
  -- a response that is not accepted adds one entry, an accepted one more
  have hrejects : (q.verdict platform config message).1 ≠ .ok true → (completeOnly
      (q.doneObs platform config message) ↔
        turnedAway platform config (q.doneObs platform config message)) := by
    intro hno
    have hnot : ¬ accepts platform config message.2.transfer (q.state.connections message.1) :=
      fun h => hno (haccepts.mpr h)
    rw [hdone, haway]
    exact imp_congr_right fun _ => ⟨fun h => ⟨h, hnot⟩, fun h => h.1⟩
  have hpublishes : (q.verdict platform config message).1 = .ok true →
      (message.2.transfer.complete ∧ completeOnly (q.doneObs platform config message) ↔
        turnedAway platform config (q.doneObs platform config message)) := by
    intro hyes
    rw [hdone, haway]
    constructor
    · exact fun h hno => absurd h.1 hno
    · intro h
      have hcomplete : message.2.transfer.complete :=
        Classical.byContradiction fun hno => (h hno).2 (haccepts.mp hyes)
      exact ⟨hcomplete, fun hno => absurd hcomplete hno⟩
  cases h with
  | faulted e verdict _ log =>
    exact ⟨[_], log, by simpa [Faults.matching] using hrejects (by rw [verdict]; simp)⟩
  | rejected verdict _ log =>
    exact ⟨[_], log, by simpa [Faults.matching] using hrejects (by rw [verdict]; simp)⟩
  | undefined verdict _ _ log =>
    exact ⟨[_, _], log, by simpa [Faults.matching, hrefresh, hrefresh'] using hpublishes verdict⟩
  | accepted verdict _ _ _ log =>
    refine ⟨[_, _, _], log, ?_⟩
    have haccept : completeOnly (.accept message.1 message.2.transfer) ↔
        message.2.transfer.complete := Iff.rfl
    have haccept' : turnedAway platform config (.accept message.1 message.2.transfer) ↔ True :=
      Iff.rfl
    simpa [Faults.matching, haccept, haccept', hrefresh, hrefresh'] using hpublishes verdict

theorem complete_only_rule (platform : Platform) (config : Config) :
    QueryRule platform config (Faults.matching completeOnly (turnedAway platform config)) where
  toComposable := Faults.matching_composable _ _
  request c r := by simp [Faults.matching, completeOnly, turnedAway]
  header c line := by simp [Faults.matching, completeOnly, turnedAway]
  sleep ms := by simp [Faults.matching, completeOnly, turnedAway]
  retriesExceeded := by simp [Faults.matching, completeOnly, turnedAway]
  message _ _ _ h _ := message_complete_only h

/-- In a query tables are published, connections removed and file times moved by complete
transfers only, exactly when the response of every incomplete transfer is turned away. -/
theorem complete_only_iff (platform : Platform) (config : Config) (flags : QueryFlags)
    (input : QueryInput) (p : State) :
    (∀ o ∈ queryLog platform config flags input p, completeOnly o) ↔
      ∀ o ∈ queryLog platform config flags input p, turnedAway platform config o := by
  obtain ⟨new, hlog, hnew⟩ := httpPsychQuery_emits (complete_only_rule platform config) flags
    input { p with log := [] }
  unfold queryLog
  rw [hlog, List.append_nil]
  exact hnew

/-! ## A body without its end -/

/-- The transfer of the sample body times out before its last character, the end of the last row. -/
def timedOut : QueryInput where
  t0 := 1336080000000000
  t1 := 1336080000000000
  rounds _ :=
    { first := [.data 0 (sampleBody.take 116)]
      order := [0]
      report := fun _ =>
        { transfer := { result := 28, responseCode := 200,
                        contentType := some "text/plain".toList, filetime := 1336079940 } } }

set_option maxRecDepth 10000 in
/-- A transfer that timed out is published. -/
theorem timed_out_transfer_published :
    ¬ ∀ o ∈ queryLog boostPlatform sampleConfig timerFlags timedOut sampleState,
      completeOnly o := by
  intro h
  have haccepted : (queryLog boostPlatform sampleConfig timerFlags timedOut sampleState).any
      (fun o => match o with | .accept _ transfer => transfer.result == 28 | _ => false) = true := by
    unfold timedOut
    rw [sampleBody_eq]
    decide +kernel
  obtain ⟨o, ho, hresult⟩ := List.any_eq_true.mp haccepted
  have hcomplete := h o ho
  cases o with
  | accept c transfer =>
    have h28 : transfer.result = 28 := by simpa using hresult
    rw [completeOnly, Transfer.complete, h28] at hcomplete
    cases hcomplete
  | request | header | done | refresh | sleep | retriesExceeded => cases hresult

end Psych
