import Psych.Query.Invariants

/-!
# The periodic feed

`OnTimer` runs a query at every tick, unless another one is running, and `time_pump_t::Run`
fires until `OnTimer` returns false. Between the ticks, and during them (`SessionCall`), RFA
delivers events to the sessions.

An invariant of the state is proved once for queries and once for events (`FeedInvariant`)
and holds in every run (`run_invariant`).
-/

namespace Psych

/-- One firing of the timer. -/
structure Tick where
  /-- Whether a query that is running holds the lock. -/
  locked : Bool := false
  query : QueryInput

/-- `OnTimer`. -/
def onTimer (platform : Platform) (config : Config) (tick : Tick) (p : State) :
    Except Fault Bool × State :=
  let p := p.tally .timerQueryReceived 1
  -- the lock is tried, not waited for
  if tick.locked then (.ok true, p)
  else
    match httpPsychQuery platform config timerFlags tick.query p with
    | (.ok (), p) => (.ok true, p)
    | (.error .invalidUsage, p) => (.ok true, p)
    | (.error .exception, p) => (.ok false, p)
    | (.error .undefined, p) => (.error .undefined, p)

/-- `time_pump_t`, with the state its callback works on. -/
structure Feed where
  state : State
  /-- In seconds, as `td`. -/
  dueTime : Int
  td : Int
  /-- Whether `Run` has not returned. -/
  running : Bool := true

inductive FeedInput where
  /-- The timer is due. -/
  | tick (tick : Tick)
  /-- RFA delivers events. -/
  | events (events : List (Nat × RfaEvent))

/-- One turn of the loop of `Run`. -/
def Feed.fire (platform : Platform) (config : Config) (tick : Tick) (feed : Feed) :
    Except Fault Unit × Feed :=
  if feed.running then
    match onTimer platform config tick feed.state with
    | (.error e, p) => (.error e, { feed with state := p })
    | (.ok false, p) => (.ok (), { feed with state := p, running := false })
    | (.ok true, p) => (.ok (), { feed with state := p, dueTime := feed.dueTime + feed.td })
  else (.ok (), feed)

def State.deliver (events : List (Nat × RfaEvent)) (p : State) : Except Fault Unit × State :=
  ((p.provider.processEvents events).1,
    { p with provider := (p.provider.processEvents events).2 })

def Feed.step (platform : Platform) (config : Config) (input : FeedInput) (feed : Feed) :
    Except Fault Unit × Feed :=
  match input with
  | .tick tick => feed.fire platform config tick
  | .events events =>
    ((feed.state.deliver events).1, { feed with state := (feed.state.deliver events).2 })

/-- A run of the feed; it ends early with the process. -/
def Feed.run (platform : Platform) (config : Config) (inputs : List FeedInput) (feed : Feed) :
    Except Fault Unit × Feed :=
  Faults.forEach (Feed.step platform config) inputs feed

/-- The state after `Init`: nothing has been fetched, and every session is muted. -/
structure State.Fresh (config : Config) (sessions : Nat) (p : State) : Prop where
  resource : ∀ c, (p.connections c).resource ∈ config.resources
  lastFiletime : ∀ c, (p.connections c).lastFiletime = 0
  provider : p.provider = .create sessions config.resources
  log : p.log = []

def sampleFeed : Feed where
  state := sampleState
  dueTime := 1336080000
  td := 60

/-- A complete response, after a header line. -/
def sampleQuery (line : Text) : QueryInput where
  t0 := 1336080000000000
  t1 := 1336080000000000
  rounds _ :=
    { first := [.header 0 line, .data 0 sampleBody]
      order := [0]
      report := fun _ =>
        { transfer := { responseCode := 200, contentType := some "text/plain".toList,
                        filetime := 1336079940 } } }

theorem sample_fresh : sampleState.Fresh sampleConfig 1 :=
  ⟨fun _ => List.mem_singleton_self _, fun _ => rfl, rfl, rfl⟩

/-! ## One firing -/

variable {platform : Platform} {config : Config}

/-- The query of a tick; none, where another one is running. -/
def State.timerQuery (platform : Platform) (config : Config) (tick : Tick) (p : State) :
    Except Fault Unit × State :=
  if tick.locked then (.ok (), p.tally .timerQueryReceived 1)
  else httpPsychQuery platform config timerFlags tick.query (p.tally .timerQueryReceived 1)

/-- What comes of the end of a query: an exception ends `Run`, unless it is one of RFA. -/
def Feed.after (feed : Feed) (r : Except Fault Unit × State) : Except Fault Unit × Feed :=
  match r.1 with
  | .error .undefined => (.error .undefined, { feed with state := r.2 })
  | .error .exception => (.ok (), { feed with state := r.2, running := false })
  | .error .invalidUsage =>
    (.ok (), { feed with state := r.2, dueTime := feed.dueTime + feed.td })
  | .ok () => (.ok (), { feed with state := r.2, dueTime := feed.dueTime + feed.td })

theorem fire_of_stopped (tick : Tick) {feed : Feed} (h : feed.running = false) :
    feed.fire platform config tick = (.ok (), feed) := by
  unfold Feed.fire
  rw [h]
  rfl

theorem fire_of_running (tick : Tick) {feed : Feed} (h : feed.running = true) :
    feed.fire platform config tick =
      feed.after (feed.state.timerQuery platform config tick) := by
  unfold Feed.fire onTimer State.timerQuery
  rw [if_pos h]
  cases tick.locked with
  | true => rfl
  | false =>
    simp only [Bool.false_eq_true, if_false]
    cases httpPsychQuery platform config timerFlags tick.query
        (feed.state.tally .timerQueryReceived 1) with
    | mk r p =>
      cases r with
      | ok _ => rfl
      | error e => cases e <;> rfl

/-! ## Invariants of runs -/

/-- A fact that queries keep, events keep, and an exception that `OnTimer` catches does not
end. -/
structure FeedInvariant (platform : Platform) (config : Config)
    (I : Except Fault Unit → State → Prop) : Prop
    extends QueryInvariant platform config I where
  caught : ∀ {e p}, e ≠ .undefined → I (.error e) p → I (.ok ()) p
  deliver : ∀ events {p : State}, I (.ok ()) p → I (p.deliver events).1 (p.deliver events).2

variable {I : Except Fault Unit → State → Prop}

theorem fire_invariant (h : FeedInvariant platform config I) (tick : Tick) {feed : Feed}
    (hfeed : I (.ok ()) feed.state) :
    I (feed.fire platform config tick).1 (feed.fire platform config tick).2.state := by
  cases hrunning : feed.running with
  | false =>
    rw [fire_of_stopped tick hrunning]
    exact hfeed
  | true =>
    rw [fire_of_running tick hrunning]
    have hquery : I (feed.state.timerQuery platform config tick).1
        (feed.state.timerQuery platform config tick).2 := by
      have htally : I (.ok ()) (feed.state.tally .timerQueryReceived 1) :=
        h.quiet _ (by simp) (quiet_tally _ _ _) hfeed
      unfold State.timerQuery
      split
      · exact htally
      · exact httpPsychQuery_invariant h.toQueryInvariant timerFlags tick.query htally
    unfold Feed.after
    split <;> rename_i heq <;> rw [heq] at hquery
    · exact hquery
    · exact h.caught (by decide) hquery
    · exact h.caught (by decide) hquery
    · exact hquery

theorem step_invariant (h : FeedInvariant platform config I) (input : FeedInput) {feed : Feed}
    (hfeed : I (.ok ()) feed.state) :
    I (feed.step platform config input).1 (feed.step platform config input).2.state := by
  cases input with
  | tick tick => exact fire_invariant h tick hfeed
  | events events => exact h.deliver events hfeed

/-- What every step keeps, every run keeps. -/
theorem run_invariant (h : FeedInvariant platform config I) (inputs : List FeedInput) {feed : Feed}
    (hfeed : I (.ok ()) feed.state) :
    I (feed.run platform config inputs).1 (feed.run platform config inputs).2.state :=
  Faults.forEach_outcome (fun r (feed : Feed) => I r feed.state)
    (fun input _ _ hfeed => step_invariant h input hfeed) hfeed

end Psych
