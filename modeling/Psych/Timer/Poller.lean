import Psych.Query.Attached
import Psych.Timer.Feed

/-!
# The queries of an instance

The timer and the Tcl commands `psych_republish` and `psych_hard_republish` run queries on one
multi handle. The timer keeps its connections; a command works on copies of them, which are
destroyed when it ends. `OnTimer` ends the timer on an exception, `execute` catches every
exception.

An invariant of queries holds in every run (`poller_invariant`).
-/

namespace Psych

/-- `psych_t`. The connections of the timer are `0, ..., count - 1`, and the copies of a command
are `count, ..., 2 * count - 1`. -/
structure Poller where
  state : State
  multi : Multi := {}
  /-- Whether `time_pump_t::Run` has not returned. -/
  running : Bool := true

/-- After `Init`. -/
def Poller.init (count : Nat) (connections : Nat → Connection) (provider : Provider) : Poller where
  state := { count := count, connections := connections, provider := provider }

inductive PollerInput where
  /-- The timer is due. -/
  | tick (tick : Tick)
  /-- A Tcl command, and whether a query that is running holds the lock. -/
  | republish (hard : Bool) (locked : Bool) (query : QueryInput)
  /-- RFA delivers events. -/
  | events (events : List (Nat × RfaEvent))

/-! ## The timer -/

def State.own (p : State) : List Nat := List.range p.count

/-- `OnTimer`, and what `Run` makes of its result. -/
def Poller.tick (platform : Platform) (config : Config) (tick : Tick) (poller : Poller) :
    Except Fault Unit × Poller :=
  if poller.running then
    let p := poller.state.tally .timerQueryReceived 1
    if tick.locked then (.ok (), { poller with state := p })
    else
      match httpPsychQueryOn platform config timerFlags tick.query p.own (p, poller.multi) with
      | (.error .undefined, p) => (.error .undefined, { poller with state := p.1, multi := p.2 })
      | (.error .exception, p) =>
        (.ok (), { poller with state := p.1, multi := p.2, running := false })
      | (.error .invalidUsage, p) | (.ok (), p) =>
        (.ok (), { poller with state := p.1, multi := p.2 })
  else (.ok (), poller)

/-! ## Tcl -/

/-- The flags of `tclPsychRepublish` and `tclPsychHardRepublish`. -/
def tclFlags (hard : Bool) : QueryFlags := { httpKeepalive := !hard, ifModifiedSince := false }

def State.copies (p : State) : List Nat := List.range' p.count p.count

/-- The copies of the connections: the resource and the URL are taken over. -/
def State.duplicate (p : State) : State :=
  { p with connections := fun c =>
      if p.count ≤ c ∧ c < 2 * p.count then
        { resource := (p.connections (c - p.count)).resource
          url := (p.connections (c - p.count)).url }
      else p.connections c }

/-- The query of a command, and the end of its copies. -/
def Poller.runCommand (platform : Platform) (config : Config) (hard : Bool) (query : QueryInput)
    (p : State × Multi) : Except Fault Unit × (State × Multi) :=
  let r := httpPsychQueryOn platform config (tclFlags hard) query p.1.copies (p.1.duplicate, p.2)
  (r.1, p.1.copies.foldl closeHandle r.2)

/-- `execute`: `catch (...)`. -/
def Poller.republish (platform : Platform) (config : Config) (hard locked : Bool)
    (query : QueryInput) (poller : Poller) : Except Fault Unit × Poller :=
  let p := poller.state.tally .tclQueryReceived 1
  -- query already running
  if locked then (.ok (), { poller with state := p })
  else
    let r := Poller.runCommand platform config hard query (p, poller.multi)
    (caught r.1, { poller with state := r.2.1, multi := r.2.2 })

/-! ## Runs -/

def Poller.step (platform : Platform) (config : Config) (input : PollerInput) (poller : Poller) :
    Except Fault Unit × Poller :=
  match input with
  | .tick tick => poller.tick platform config tick
  | .republish hard locked query => poller.republish platform config hard locked query
  | .events events =>
    ((poller.state.deliver events).1, { poller with state := (poller.state.deliver events).2 })

/-- A run; it ends early with the process. -/
def Poller.run (platform : Platform) (config : Config) (inputs : List PollerInput)
    (poller : Poller) : Except Fault Unit × Poller :=
  Faults.forEach (Poller.step platform config) inputs poller

/-! ## Invariants of runs -/

/-- A fact that the queries of the timer and of the commands keep, and every step between
them. -/
structure PollerInvariant (platform : Platform) (config : Config)
    (I : Except Fault Unit → State × Multi → Prop) : Prop where
  timer : ∀ query p, I (.ok ()) p →
    I (httpPsychQueryOn platform config timerFlags query p.1.own p).1
      (httpPsychQueryOn platform config timerFlags query p.1.own p).2
  command : ∀ hard query p, I (.ok ()) p →
    I (Poller.runCommand platform config hard query p).1
      (Poller.runCommand platform config hard query p).2
  received : ∀ counter, counter = .timerQueryReceived ∨ counter = .tclQueryReceived →
    ∀ p, I (.ok ()) p → I (.ok ()) (p.1.tally counter 1, p.2)
  caught : ∀ {e p}, e ≠ .undefined → I (.error e) p → I (.ok ()) p
  deliver : ∀ events p, I (.ok ()) p →
    I (p.1.deliver events).1 ((p.1.deliver events).2, p.2)

variable {platform : Platform} {config : Config} {I : Except Fault Unit → State × Multi → Prop}

theorem tick_invariant (h : PollerInvariant platform config I) (tick : Tick) {poller : Poller}
    (hp : I (.ok ()) (poller.state, poller.multi)) :
    let r := poller.tick platform config tick
    I r.1 (r.2.state, r.2.multi) := by
  unfold Poller.tick
  dsimp only
  have htally := h.received .timerQueryReceived (Or.inl rfl) _ hp
  split
  · split
    · exact htally
    · have hquery := h.timer tick.query _ htally
      dsimp only at hquery
      cases hr : httpPsychQueryOn platform config timerFlags tick.query
          (poller.state.tally .timerQueryReceived 1).own
          (poller.state.tally .timerQueryReceived 1, poller.multi) with
      | mk r p =>
        rw [hr] at hquery
        cases r with
        | ok _ => exact hquery
        | error e =>
          cases e with
          | undefined => exact hquery
          | exception => exact h.caught (by simp) hquery
          | invalidUsage => exact h.caught (by simp) hquery
  · exact hp

theorem republish_invariant (h : PollerInvariant platform config I) (hard locked : Bool)
    (query : QueryInput) {poller : Poller} (hp : I (.ok ()) (poller.state, poller.multi)) :
    let r := poller.republish platform config hard locked query
    I r.1 (r.2.state, r.2.multi) := by
  unfold Poller.republish
  dsimp only
  have htally := h.received .tclQueryReceived (Or.inr rfl) _ hp
  split
  · exact htally
  · have hquery := h.command hard query _ htally
    cases hr : (Poller.runCommand platform config hard query
        (poller.state.tally .tclQueryReceived 1, poller.multi)).1 with
    | ok _ =>
      rw [hr] at hquery
      exact hquery
    | error e =>
      rw [hr] at hquery
      cases e with
      | undefined => exact hquery
      | exception => exact h.caught (by simp) hquery
      | invalidUsage => exact h.caught (by simp) hquery

theorem poller_step_invariant (h : PollerInvariant platform config I) (input : PollerInput)
    {poller : Poller} (hp : I (.ok ()) (poller.state, poller.multi)) :
    let r := poller.step platform config input
    I r.1 (r.2.state, r.2.multi) := by
  cases input with
  | tick tick => exact tick_invariant h tick hp
  | republish hard locked query => exact republish_invariant h hard locked query hp
  | events events => exact h.deliver events _ hp

/-- What every step keeps, every run keeps. -/
theorem poller_invariant (h : PollerInvariant platform config I) (inputs : List PollerInput)
    {poller : Poller} (hp : I (.ok ()) (poller.state, poller.multi)) :
    let r := poller.run platform config inputs
    I r.1 (r.2.state, r.2.multi) :=
  Faults.forEach_outcome (fun r (poller : Poller) => I r (poller.state, poller.multi))
    (fun input _ _ hp => poller_step_invariant h input hp) hp

/-! ## Between the steps -/

/-- Between the steps the multi handle contains at most handles of the timer. -/
structure Rested (p : State × Multi) : Prop where
  sound : Multi.Sound p
  own : ∀ c ∈ p.2.attached, c < p.1.count

theorem Rested.of_clean {p : State × Multi} (h : p.2 = {}) : Rested p := by
  obtain ⟨state, multi⟩ := p
  cases h
  exact ⟨⟨by simp, by simp, List.nodup_nil⟩, by simp⟩

/-- The multi handle contains handles of connections below a bound. -/
def Bounded (bound n : Nat) (p : State × Multi) : Prop :=
  Multi.Sound p ∧ (∀ c ∈ p.2.attached, c < bound) ∧ p.1.count = n

theorem prepareOn_count (flags : QueryFlags) (t0 : Int) (easyInit : Nat → Bool)
    (p : State × Multi) (c : Nat) :
    (prepareOn platform config flags t0 easyInit p c).1.count = p.1.count := by
  unfold prepareOn prepare
  dsimp only
  split <;> rfl

theorem attached_handleMessageOn (message : Nat × Report) (q : Query × Multi) :
    (handleMessageOn platform config message q).2.2.attached ⊆ q.2.attached := by
  unfold handleMessageOn
  dsimp only
  split
  · exact fun c hc => (Multi.mem_attached_detach.mp hc).1
  · exact List.Subset.refl _

theorem bounded_invariant (own : List Nat) (bound n : Nat) (hown : ∀ c ∈ own, c < bound) :
    MultiInvariant platform config own fun _ p => Bounded bound n p where
  request flags t0 input pending p hpending h := by
    refine requestOn_invariant (J := Bounded bound n) (fun p c hc h => ?_) (fun p h => ?_) h
    · refine ⟨prepareOn_sound h.1 flags t0 input.easyInit c, fun c' hc' => ?_,
        (prepareOn_count flags t0 input.easyInit p c).trans h.2.2⟩
      rcases (mem_attached_prepareOn h.1 flags t0 input.easyInit c c').mp hc' with
        ⟨rfl, _⟩ | ⟨_, hmem⟩
      · exact hown c' (hpending hc)
      · exact h.2.1 c' hmem
    · refine ⟨transfers_sound h.1 input pending, ?_,
        (transfers_sameTimes input _ p.1).count.trans h.2.2⟩
      split <;> exact h.2.1
  message message q hc h :=
    ⟨(multi_sound_invariant platform config own).message message q hc h.1,
      fun c hc' => h.2.1 c (attached_handleMessageOn message q hc'),
      (handleMessage_sameTimes message q.1).count.trans h.2.2⟩
  sleep milliseconds p h :=
    ⟨(multi_sound_invariant platform config own).sleep milliseconds p h.1, h.2⟩
  exceeded p h := ⟨(multi_sound_invariant platform config own).exceeded p h.1, h.2⟩
  close _ p c h := by
    refine ⟨closeHandle_sound h.1 c, ?_⟩
    unfold closeHandle
    split
    · exact ⟨fun c' hc' => h.2.1 c' (Multi.mem_attached_detach.mp hc').1, h.2.2⟩
    · exact h.2

theorem Rested.duplicate {p : State × Multi} (h : Rested p) : Multi.Sound (p.1.duplicate, p.2) := by
  refine ⟨fun c hc => ?_, h.sound.running, h.sound.nodup⟩
  have hlt := h.own c hc
  unfold State.duplicate
  dsimp only
  rw [if_neg (by omega)]
  exact h.sound.held c hc

theorem mem_copies {p : State} {c : Nat} : c ∈ p.copies ↔ p.count ≤ c ∧ c < 2 * p.count := by
  unfold State.copies
  rw [List.mem_range'_1]
  omega

/-- What the steps of queries keep where the multi handle is sound, every run keeps. -/
theorem rested_invariant {J : Except Fault Unit → State × Multi → Prop}
    (hmulti : ∀ own, MultiInvariant platform config own fun r p => Multi.Sound p ∧ J r p)
    (htime : ∀ td p, J (.ok ()) p → J (.ok ()) (p.1.recordTime td, p.2))
    (hduplicate : ∀ p, J (.ok ()) p → J (.ok ()) (p.1.duplicate, p.2))
    (hreceived : ∀ counter, counter = .timerQueryReceived ∨ counter = .tclQueryReceived →
      ∀ p, J (.ok ()) p → J (.ok ()) (p.1.tally counter 1, p.2))
    (hcaught : ∀ {e p}, e ≠ .undefined → J (.error e) p → J (.ok ()) p)
    (hdeliver : ∀ events p, J (.ok ()) p →
      J (p.1.deliver events).1 ((p.1.deliver events).2, p.2)) :
    PollerInvariant platform config fun r p => Rested p ∧ J r p where
  timer query p hp := by
    have hquery := httpPsychQueryOn_invariant
      ((bounded_invariant p.1.own p.1.count p.1.count
        fun c hc => List.mem_range.mp hc).and (hmulti p.1.own))
      (fun td p h => ⟨⟨h.2.1.congr fun _ => rfl, h.1.2⟩, h.2.1.congr fun _ => rfl,
        htime td p h.2.2⟩)
      timerFlags query (p := p) ⟨⟨hp.1.sound, hp.1.own, rfl⟩, hp.1.sound, hp.2⟩
    obtain ⟨⟨hsound, hbound, hcount⟩, _, hJ⟩ := hquery
    exact ⟨⟨hsound, fun c hc => hcount ▸ hbound c hc⟩, hJ⟩
  command hard query p hp := by
    have hmulti' := (bounded_invariant p.1.copies (2 * p.1.count) p.1.count
      fun c hc => (mem_copies.mp hc).2).and (hmulti p.1.copies)
    have hquery := httpPsychQueryOn_invariant hmulti'
      (fun td p h => ⟨⟨h.2.1.congr fun _ => rfl, h.1.2⟩, h.2.1.congr fun _ => rfl,
        htime td p h.2.2⟩)
      (tclFlags hard) query (p := (p.1.duplicate, p.2))
      ⟨⟨hp.1.duplicate, fun c hc => by have := hp.1.own c hc; omega, rfl⟩, hp.1.duplicate,
        hduplicate p hp.2⟩
    obtain ⟨⟨hsound, hbound, hcount⟩, _, hJ⟩ := closeHandle_invariant hmulti' p.1.copies hquery
    refine ⟨⟨hsound, fun c hc => ?_⟩, hJ⟩
    have hcopy := (mem_attached_foldl_closeHandle hquery.2.1 p.1.copies c).mp hc
    have hlt := hbound c hc
    rw [mem_copies] at hcopy
    rw [show (Poller.runCommand platform config hard query p).2.1.count = p.1.count from hcount]
    omega
  received counter hcounter p hp :=
    ⟨⟨hp.1.sound.congr fun _ => rfl, hp.1.own⟩, hreceived counter hcounter p hp.2⟩
  caught he hp := ⟨hp.1, hcaught he hp.2⟩
  deliver events p hp :=
    ⟨⟨hp.1.sound.congr fun _ => rfl, hp.1.own⟩, hdeliver events p hp.2⟩

/-! ## A small instance -/

/-- A tick at which the server sends a page with the status. -/
def statusTick (responseCode : Int) : PollerInput :=
  .tick { query :=
    { t0 := 0
      t1 := 0
      rounds := fun _ =>
        { order := [0]
          report := fun _ =>
            { transfer := { responseCode := responseCode,
                            contentType := some "text/html".toList } } } } }

/-- One tick of an instance with one connection. -/
def statusRun (responseCode : Int) : Poller :=
  (Poller.run boostPlatform sampleConfig [statusTick responseCode]
    (.init 1 sampleState.connections sampleState.provider)).2

end Psych
