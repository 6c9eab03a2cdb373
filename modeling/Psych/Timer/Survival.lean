import Psych.Publish.LabelColumn
import Psych.Timer.Sound

/-!
# What stops the feed

`Run` returns when an exception leaves a query, and a query may come to undefined behaviour before
it returns. Both come from what the server sent, and `harmless` says of each header line, response
and table whether they do (`run_survives_iff`).
-/

namespace Psych

open Faults (Emits)

variable {platform : Platform} {config : Config}

/-- The response has a content type where one is read, and the times of an accepted table can be
rendered. -/
def answersProperly (platform : Platform) (config : Config) (transfer : Transfer)
    (connection : Connection) : Prop :=
  ¬ readsNull platform transfer ∧
    (reachesTable config transfer connection → tableAccepted platform connection.data = true →
      rendered platform transfer connection = true)

def harmless (platform : Platform) (config : Config) : Obs → Prop
  | .header _ line => headerFine platform line = true
  | .done _ transfer connection _ => answersProperly platform config transfer connection
  | .refresh _ _ resource table calls _ => ¬ readsOutside resource table calls
  | _ => True

/-- As `harmless`, with the outcome of the refresh itself. -/
def unfaulted (platform : Platform) (config : Config) : Obs → Prop
  | .refresh _ _ resource table calls provider =>
    (sendRefresh config resource table calls provider).1 ≠ .error .undefined
  | o => harmless platform config o

/-! ## Queries -/

theorem respond_ok_iff (platform : Platform) (config : Config) (transfer : Transfer)
    (connection : Connection) (stats : Stats) (engineVersion : Text) :
    (∃ accepted, (respond platform config transfer connection stats engineVersion).1 =
      .ok accepted) ↔ answersProperly platform config transfer connection := by
  unfold answersProperly
  by_cases hreach : reachesTable config transfer connection
  · rw [(respond_of_reaches hreach platform stats engineVersion).1]
    have hread := hreach.not_readsNull platform
    cases tableAccepted platform connection.data with
    | false => simp [hread]
    | true => cases rendered platform transfer connection <;> simp [hread, hreach]
  · rw [(respond_of_not_reaches hreach platform stats engineVersion).1]
    split <;> simp [*]

theorem message_unfaulted {message : Nat × Report} {q : Query} {r : Except Fault Unit × Query}
    (h : Handled platform config message q r) (hpending : message.1 ∈ q.pending) :
    Emits (fun q : Query => q.state.log) (Faults.blame (unfaulted platform config)) q r := by
  have hanswers := respond_ok_iff platform config message.2.transfer
    (q.state.connections message.1) q.state.stats q.engineVersion
  have hdone : unfaulted platform config (q.doneObs platform config message) ↔
      ∃ accepted, (q.verdict platform config message).1 = .ok accepted := hanswers.symm
  have hrefresh : unfaulted platform config (q.refreshObs platform config message) ↔
      (q.refresh platform config message).1 ≠ .error .undefined := Iff.rfl
  cases h with
  | faulted e verdict fst log =>
    refine ⟨[_], log, ?_⟩
    simp [Faults.blame, Faults.succeeded, fst, hdone, verdict]
  | rejected verdict fst log =>
    refine ⟨[_], log, ?_⟩
    simp [Faults.blame, Faults.succeeded, fst, hdone, verdict]
  | undefined verdict cause fst log =>
    have hundefined := cause.resolve_right fun hno => hno hpending
    refine ⟨[_, _], log, ?_⟩
    simp [Faults.blame, Faults.succeeded, fst, hrefresh, hundefined]
  | accepted verdict published _ fst log =>
    refine ⟨[_, _, _], log, ?_⟩
    have haccept : unfaulted platform config (.accept message.1 message.2.transfer) := trivial
    simp [Faults.blame, Faults.succeeded, fst, hrefresh, published, hdone, verdict, haccept]

theorem unfaulted_rule (platform : Platform) (config : Config) :
    QueryRule platform config (Faults.blame (unfaulted platform config)) where
  toComposable := Faults.blame_composable _
  request c r := by simp [Faults.blame, unfaulted, harmless]
  header c line := by simp [Faults.blame, unfaulted, harmless]
  sleep ms := by simp [Faults.blame, unfaulted, harmless]
  retriesExceeded := by simp [Faults.blame, unfaulted, harmless]
  message _ _ _ h hpending := message_unfaulted h hpending

theorem respond_error (platform : Platform) (config : Config) (transfer : Transfer)
    (connection : Connection) (stats : Stats) (engineVersion : Text) :
    (respond platform config transfer connection stats engineVersion).1 ≠
      .error .invalidUsage := by
  by_cases hreach : reachesTable config transfer connection
  · rw [(respond_of_reaches hreach platform stats engineVersion).1]
    split_ifs <;> simp
  · rw [(respond_of_not_reaches hreach platform stats engineVersion).1]
    split_ifs <;> simp

/-! ## The feed -/

/-- The process goes on, and the timer with it. -/
def survives (r : Except Fault Unit × Feed) : Prop := r.1 = .ok () ∧ r.2.running = true

/-- A query that faults ends the feed: it throws no exception of RFA. -/
theorem after_survives (feed : Feed) {r : Except Fault Unit × State} (h : feed.running = true)
    (hr : r.1 ≠ .error .invalidUsage) :
    survives (feed.after r) ↔ Faults.succeeded r = true := by
  unfold survives Feed.after
  obtain ⟨r, p⟩ := r
  cases r with
  | ok _ => simp [h]
  | error e => cases e <;> simp at hr ⊢

theorem after_log (feed : Feed) (r : Except Fault Unit × State) :
    (feed.after r).2.state = r.2 := by
  unfold Feed.after
  split <;> rfl

theorem timerQuery_emits (platform : Platform) (config : Config) (tick : Tick) (p : State) :
    Emits State.log (Faults.blame (unfaulted platform config)) p
      (p.timerQuery platform config tick) := by
  unfold State.timerQuery
  split
  · exact ⟨[], rfl, by simp [Faults.blame]⟩
  · exact (httpPsychQuery_emits (unfaulted_rule platform config) timerFlags tick.query
      (p.tally .timerQueryReceived 1)).congr rfl rfl rfl

/-- No exception of RFA leaves a query. -/
theorem timerQuery_error (tick : Tick) (p : State) :
    (p.timerQuery platform config tick).1 ≠ .error .invalidUsage := by
  unfold State.timerQuery
  split
  · simp
  · refine httpPsychQuery_invariant (I := fun r _ => r ≠ .error .invalidUsage)
      ⟨fun r hr _ _ => hr, fun message q _ => ?_⟩ timerFlags tick.query (by simp)
    have herror := respond_error platform config message.2.transfer
      (q.state.connections message.1) q.state.stats q.engineVersion
    have hcases : Handled platform config message q (handleMessage platform config message q) :=
      handleMessage_cases message q
    cases hcases with
    | faulted e verdict fst =>
      rw [fst]
      exact fun he => herror (verdict.trans (congrArg Except.error (Except.error.inj he)))
    | rejected _ fst | undefined _ _ fst | accepted _ _ _ fst =>
      rw [fst]
      simp

theorem step_survives (input : FeedInput) {feed : Feed} (h : Sound platform config feed.state) :
    ∃ new, (feed.step platform config input).2.state.log = new ++ feed.state.log ∧
      (survives (feed.step platform config input) ↔
        feed.running = true ∧ ∀ o ∈ new, unfaulted platform config o) := by
  cases input with
  | events events =>
    refine ⟨[], rfl, ?_⟩
    have hok := (processEvents_ok events (h.ready _ (h.resource 0)).wellFormed).1
    simp [survives, Feed.step, State.deliver, hok]
  | tick tick =>
    change ∃ new, (feed.fire platform config tick).2.state.log = new ++ feed.state.log ∧
      (survives (feed.fire platform config tick) ↔ _)
    cases hrunning : feed.running with
    | false =>
      rw [fire_of_stopped tick hrunning]
      exact ⟨[], rfl, by simp [survives, hrunning]⟩
    | true =>
      rw [fire_of_running tick hrunning]
      obtain ⟨new, hlog, hnew⟩ := timerQuery_emits platform config tick feed.state
      refine ⟨new, by rw [after_log]; exact hlog, ?_⟩
      rw [after_survives feed hrunning (timerQuery_error tick feed.state)]
      exact Iff.trans hnew (and_iff_right rfl).symm

theorem run_survives (platform : Platform) (inputs : List FeedInput) {feed : Feed}
    (h : Sound platform config feed.state) :
    ∃ new, (feed.run platform config inputs).2.state.log = new ++ feed.state.log ∧
      (survives (feed.run platform config inputs) ↔
        feed.running = true ∧ ∀ o ∈ new, unfaulted platform config o) := by
  induction inputs generalizing feed with
  | nil => exact ⟨[], rfl, by simp [survives, Feed.run]⟩
  | cons input inputs ih =>
    obtain ⟨new, hlog, hnew⟩ := step_survives input h
    unfold Feed.run
    rcases Faults.forEach_cons_cases (Feed.step platform config) input inputs feed with
      ⟨e, hstep, heq⟩ | ⟨hstep, heq⟩
    · rw [heq]
      refine ⟨new, hlog, ?_⟩
      rw [← hnew]
      simp [survives, hstep]
    · rw [heq]
      obtain ⟨new', hlog', hnew'⟩ := ih (step_invariant (sound_invariant platform config) input h)
      refine ⟨new' ++ new, ?_, ?_⟩
      · rw [List.append_assoc, ← hlog]
        exact hlog'
      · have hgood : (feed.step platform config input).2.running = true ↔
            feed.running = true ∧ ∀ o ∈ new, unfaulted platform config o := by
          rw [← hnew]
          exact (and_iff_right hstep).symm
        apply hnew'.trans
        rw [hgood]
        simp only [List.mem_append, or_imp, forall_and]
        tauto

/-- After `Init` the timer fires as long as it is due exactly when all that the server sent is
harmless: every header line that is taken for a date has a date, every response has a content
type where it is read, the times of every accepted table can be rendered, and no table that is
published has a value outside its row read. -/
theorem run_survives_iff {sessions : Nat} {feed : Feed} (h : feed.state.Fresh config sessions)
    (hrunning : feed.running = true) (inputs : List FeedInput) :
    survives (feed.run platform config inputs) ↔
      ∀ o ∈ (feed.run platform config inputs).2.state.log, harmless platform config o := by
  have hsound := run_sound platform inputs h.sound
  obtain ⟨new, hlog, hnew⟩ := run_survives platform inputs h.sound
  rw [h.log, List.append_nil] at hlog
  rw [hnew, ← hlog, and_iff_right hrunning]
  refine forall₂_congr fun o ho => ?_
  cases o with
  | refresh c transfer resource table calls provider =>
    obtain ⟨hrect, hready, _⟩ := hsound.accounted _ ho
    exact not_congr (sendRefresh_undefined_iff hready hrect)
  | request | header | done | accept | sleep | retriesExceeded => exact Iff.rfl

/-- A tick at which the server sends a header line and a table. -/
def sampleTick (line : String) : FeedInput := .tick { query := sampleQuery line.toList }

/-- What can be evaluated of a log to see that it is harmless. -/
def seenHarmless : Obs → Bool
  | .header _ line => headerFine boostPlatform line
  | .done _ transfer connection _ =>
    (respond boostPlatform sampleConfig transfer connection (fun _ => 0) []).1 == .ok true
  | .refresh _ _ resource table _ _ =>
    table.columns.head?.all fun name => (resource.fields.lookup name).isNone
  | _ => true

theorem harmless_of_seen {o : Obs} (h : seenHarmless o = true) :
    harmless boostPlatform sampleConfig o := by
  cases o with
  | header c line => exact h
  | done c transfer connection lastFiletime =>
    exact (respond_ok_iff boostPlatform sampleConfig transfer connection (fun _ => 0) []).mp
      ⟨true, beq_iff_eq.mp h⟩
  | refresh c transfer resource table calls provider =>
    rintro ⟨⟨name, hname, hfield⟩, _⟩
    simp only [seenHarmless, hname, Option.all_some, Option.isNone_iff_eq_none] at h
    rw [h] at hfield
    cases hfield
  | request | accept | sleep | retriesExceeded => exact trivial

set_option maxRecDepth 10000 in
theorem sample_run_survives : survives (sampleFeed.run boostPlatform sampleConfig
    [sampleTick "Date: Thu, 03 May 2012 21:20:00 GMT\r\n"]) := by
  have hseen : ∀ o ∈ (sampleFeed.run boostPlatform sampleConfig
      [sampleTick "Date: Thu, 03 May 2012 21:20:00 GMT\r\n"]).2.state.log,
      seenHarmless o = true := by
    unfold sampleTick sampleQuery
    rw [sampleBody_eq]
    decide +kernel
  exact (@run_survives_iff boostPlatform sampleConfig 1 sampleFeed sample_fresh rfl
    [sampleTick "Date: Thu, 03 May 2012 21:20:00 GMT\r\n"]).mpr fun o ho =>
      harmless_of_seen (hseen o ho)

set_option maxRecDepth 10000 in
/-- A header line with a date that the calendar lacks ends the timer. -/
theorem impossible_date_stops_feed :
    ¬ survives (sampleFeed.run boostPlatform sampleConfig
      [sampleTick "Date: Fri, 31 Feb 2012 21:20:00 GMT\r\n"]) := by
  intro h
  exact absurd h.2 (by decide +kernel)

end Psych
