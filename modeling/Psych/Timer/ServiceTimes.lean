import Psych.Library.Runs
import Psych.Timer.Poller

/-!
# Service times

`OnTimer` counts a timer query when it starts. The extrema and the total of the refresh times are
stored one after the other when a query ends, also where a Tcl command runs it, and SNMP reads
them at any moment (`ServiceTimes.step`). The mean is the total over the number of timer queries:
it is that of the completed timer queries where every tick so far has completed its query and no
Tcl command has (`reads_coherent`).

Every run of the timer and of the Tcl commands goes through such moments (`run_shows`).
-/

namespace Psych

/-! ## The times at any moment -/

inductive Caller where
  | timer
  | tcl
deriving DecidableEq

/-- How far the query that holds the lock has come. -/
inductive Progress where
  | idle
  | running (caller : Caller)
  /-- The time the query took is known. -/
  | ended (caller : Caller) (td : Int)
  | minStored (caller : Caller) (td : Int)
  | maxStored (caller : Caller) (td : Int)
deriving DecidableEq

def Progress.caller : Progress → Option Caller
  | .idle => none
  | .running caller | .ended caller _ | .minStored caller _ | .maxStored caller _ => some caller

structure ServiceTimes where
  /-- `PSYCH_PC_TIMER_QUERY_RECEIVED`. -/
  received : BitVec 32 := 0
  /-- `none` is positive infinity. -/
  minRefreshTime : Option Int := none
  /-- `none` is negative infinity. -/
  maxRefreshTime : Option Int := none
  totalRefreshTime : Int := 0
  progress : Progress := .idle
  /-- Whether `time_pump_t::Run` has not returned. -/
  pumping : Bool := true
  /-- The number of ticks; not in the source. -/
  ticks : Nat := 0
  /-- The number of timer queries that have completed; not in the source. -/
  completed : Nat := 0
  /-- The time they took; not in the source. -/
  completedTime : Int := 0
  /-- The number of queries of Tcl commands that have completed; not in the source. -/
  tclCompleted : Nat := 0

inductive Moment where
  /-- `OnTimer` is called. -/
  | tick
  /-- A Tcl command tries the lock. -/
  | republish
  /-- The query reaches its end, after a time. -/
  | ended (td : Int)
  /-- The next of the three values is stored. -/
  | store
  /-- The query throws, and whether that ends the timer. -/
  | thrown (stops : Bool)
  /-- SNMP reads the values. -/
  | read

/-- `if (td < min_refresh_time_) min_refresh_time_ = td`. -/
def storedMin (old : Option Int) (td : Int) : Int :=
  match old with
  | none => td
  | some t => min t td

/-- `if (td > max_refresh_time_) max_refresh_time_ = td`. -/
def storedMax (old : Option Int) (td : Int) : Int :=
  match old with
  | none => td
  | some t => max t td

/-- The last value is stored: the query has completed. -/
def ServiceTimes.complete (caller : Caller) (td : Int) (s : ServiceTimes) : ServiceTimes :=
  let s := { s with totalRefreshTime := s.totalRefreshTime + td, progress := .idle }
  match caller with
  | .timer => { s with completed := s.completed + 1, completedTime := s.completedTime + td }
  | .tcl => { s with tclCompleted := s.tclCompleted + 1 }

def ServiceTimes.step (s : ServiceTimes) : Moment → ServiceTimes
  | .tick =>
    -- one thread calls `OnTimer`
    if s.pumping && s.progress.caller ≠ some .timer then
      let s := { s with received := s.received + 1, ticks := s.ticks + 1 }
      if s.progress = .idle then { s with progress := .running .timer } else s
    else s
  | .republish => if s.progress = .idle then { s with progress := .running .tcl } else s
  | .ended td =>
    match s.progress with
    | .running caller => { s with progress := .ended caller td }
    | _ => s
  | .store =>
    match s.progress with
    | .ended caller td =>
      { s with
        minRefreshTime := some (storedMin s.minRefreshTime td)
        progress := .minStored caller td }
    | .minStored caller td =>
      { s with
        maxRefreshTime := some (storedMax s.maxRefreshTime td)
        progress := .maxStored caller td }
    | .maxStored caller td => s.complete caller td
    | _ => s
  | .thrown stops =>
    match s.progress with
    | .running caller =>
      { s with progress := .idle, pumping := s.pumping && !(stops && caller = .timer) }
    | _ => s
  | .read => s

/-! ## The exported values -/

/-- `total_milliseconds ()`. -/
def totalMilliseconds (td : Int) : Int := td.tdiv 1000

/-- A minimum or maximum as `psychPluginPerformanceTable_handler` exports it. -/
def exportTime : Option Int → BitVec 32
  | none => 0
  | some td => BitVec.ofInt 32 (totalMilliseconds td)

/-- `psychTimerSvcTimeMean`. -/
def ServiceTimes.exportMean (s : ServiceTimes) : BitVec 32 :=
  if 0 < s.received then
    BitVec.ofInt 32 ((totalMilliseconds s.totalRefreshTime).tdiv s.received.toNat)
  else 0

/-- The exported minimum, mean and maximum are in order, and the mean is that of the completed
timer queries, in whole milliseconds. -/
structure ServiceTimes.Coherent (s : ServiceTimes) : Prop where
  min_le_mean : exportTime s.minRefreshTime ≤ s.exportMean
  mean_le_max : s.exportMean ≤ exportTime s.maxRefreshTime
  mean : (s.exportMean.toNat : Int) = s.completedTime / (1000 * s.completed)

/-- What each moment has to meet: the number of ticks and the time of a query stay in range, and
at a read every tick so far has completed its query and no Tcl command has. -/
def Steady (s : ServiceTimes) : Moment → Prop
  | .tick => s.ticks + 1 < 4294967296
  | .ended td => 0 ≤ td ∧ td < 4294967296000
  | .read => 0 < s.completed → s.ticks = s.completed ∧ s.tclCompleted = 0
  | _ => True

/-- A read finds coherent values, once a timer query has completed. -/
def ReadsCoherent (s : ServiceTimes) (moment : Moment) : Prop :=
  moment = .read → 0 < s.completed → s.Coherent

/-! ## What the times say at any moment -/

/-- The time of a query that is in range. -/
def InRange (td : Int) : Prop := 0 ≤ td ∧ td < 4294967296000

structure ServiceTimes.Ledger (s : ServiceTimes) : Prop where
  received : s.received = BitVec.ofNat 32 s.ticks
  ticks : s.ticks < 4294967296
  total : s.tclCompleted = 0 → s.totalRefreshTime = s.completedTime
  empty : s.completed = 0 → s.completedTime = 0
  lower : ∀ t, s.minRefreshTime = some t → InRange t ∧ t * s.completed ≤ s.completedTime
  upper : ∀ t, s.maxRefreshTime = some t → InRange t ∧ s.completedTime ≤ t * s.completed
  stored : 0 < s.completed → s.minRefreshTime ≠ none ∧ s.maxRefreshTime ≠ none
  ended : ∀ caller td, s.progress = .ended caller td → InRange td
  minStored : ∀ caller td, s.progress = .minStored caller td →
    InRange td ∧ ∃ t, s.minRefreshTime = some t ∧ t ≤ td
  maxStored : ∀ caller td, s.progress = .maxStored caller td →
    InRange td ∧ (∃ t, s.minRefreshTime = some t ∧ t ≤ td) ∧
      ∃ t, s.maxRefreshTime = some t ∧ td ≤ t

theorem ServiceTimes.Ledger.tick {s : ServiceTimes} (h : s.Ledger)
    (hticks : s.ticks + 1 < 4294967296) : (s.step .tick).Ledger := by
  have hreceived : s.received + 1 = BitVec.ofNat 32 (s.ticks + 1) := by
    rw [h.received, BitVec.ofNat_add]
    rfl
  unfold ServiceTimes.step
  dsimp only
  split
  · split
    · exact ⟨hreceived, hticks, h.total, h.empty, h.lower, h.upper, h.stored, by simp, by simp,
        by simp⟩
    · exact ⟨hreceived, hticks, h.total, h.empty, h.lower, h.upper, h.stored, h.ended, h.minStored,
        h.maxStored⟩
  · exact h

/-- The stored minimum is at most the time of every query, the one that ends included. -/
theorem ServiceTimes.Ledger.storedMin_le {s : ServiceTimes} (h : s.Ledger) {td : Int}
    (hrange : InRange td) :
    InRange (storedMin s.minRefreshTime td) ∧
      storedMin s.minRefreshTime td * s.completed ≤ s.completedTime ∧
      storedMin s.minRefreshTime td ≤ td := by
  cases hmin : s.minRefreshTime with
  | none =>
    have hzero : s.completed = 0 := by
      by_contra hne
      exact (h.stored (Nat.pos_of_ne_zero hne)).1 hmin
    rw [hzero, h.empty hzero]
    exact ⟨hrange, by simp, le_rfl⟩
  | some t =>
    obtain ⟨hrange', hle⟩ := h.lower t hmin
    refine ⟨?_, ?_, min_le_right t td⟩
    · unfold InRange storedMin at *
      dsimp only
      omega
    · calc
        min t td * s.completed ≤ t * s.completed :=
          Int.mul_le_mul_of_nonneg_right (min_le_left t td) (Int.natCast_nonneg _)
        _ ≤ s.completedTime := hle

/-- The stored maximum is at least the time of every query, the one that ends included. -/
theorem ServiceTimes.Ledger.le_storedMax {s : ServiceTimes} (h : s.Ledger) {td : Int}
    (hrange : InRange td) :
    InRange (storedMax s.maxRefreshTime td) ∧
      s.completedTime ≤ storedMax s.maxRefreshTime td * s.completed ∧
      td ≤ storedMax s.maxRefreshTime td := by
  cases hmax : s.maxRefreshTime with
  | none =>
    have hzero : s.completed = 0 := by
      by_contra hne
      exact (h.stored (Nat.pos_of_ne_zero hne)).2 hmax
    rw [hzero, h.empty hzero]
    exact ⟨hrange, by simp, le_rfl⟩
  | some t =>
    obtain ⟨hrange', hle⟩ := h.upper t hmax
    refine ⟨?_, ?_, le_max_right t td⟩
    · unfold InRange storedMax at *
      dsimp only
      omega
    · calc
        s.completedTime ≤ t * s.completed := hle
        _ ≤ max t td * s.completed :=
          Int.mul_le_mul_of_nonneg_right (le_max_left t td) (Int.natCast_nonneg _)

/-- The minimum is stored. -/
theorem ServiceTimes.Ledger.storeMin {s : ServiceTimes} (h : s.Ledger) {caller : Caller} {td : Int}
    (hprogress : s.progress = .ended caller td) : (s.step .store).Ledger := by
  have hrange := h.ended caller td hprogress
  obtain ⟨hin, hmul, hle⟩ := h.storedMin_le hrange
  simp only [ServiceTimes.step, hprogress]
  refine ⟨h.received, h.ticks, h.total, h.empty, fun t ht => ?_, h.upper,
    fun hcompleted => ⟨by simp, (h.stored hcompleted).2⟩, by simp, fun caller' td' htd => ?_,
    by simp⟩
  · cases ht
    exact ⟨hin, hmul⟩
  · cases htd
    exact ⟨hrange, _, rfl, hle⟩

/-- The maximum is stored. -/
theorem ServiceTimes.Ledger.storeMax {s : ServiceTimes} (h : s.Ledger) {caller : Caller} {td : Int}
    (hprogress : s.progress = .minStored caller td) : (s.step .store).Ledger := by
  obtain ⟨hrange, hmin⟩ := h.minStored caller td hprogress
  obtain ⟨hin, hmul, hle⟩ := h.le_storedMax hrange
  simp only [ServiceTimes.step, hprogress]
  refine ⟨h.received, h.ticks, h.total, h.empty, h.lower, fun t ht => ?_,
    fun hcompleted => ⟨(h.stored hcompleted).1, by simp⟩, by simp, by simp,
    fun caller' td' htd => ?_⟩
  · cases ht
    exact ⟨hin, hmul⟩
  · cases htd
    exact ⟨hrange, hmin, _, rfl, hle⟩

/-- The total is stored. -/
theorem ServiceTimes.Ledger.storeTotal {s : ServiceTimes} (h : s.Ledger) {caller : Caller}
    {td : Int} (hprogress : s.progress = .maxStored caller td) : (s.step .store).Ledger := by
  obtain ⟨hrange, ⟨low, hmin, hlow⟩, ⟨high, hmax, hhigh⟩⟩ := h.maxStored caller td hprogress
  simp only [ServiceTimes.step, ServiceTimes.complete, hprogress]
  cases caller with
  | tcl =>
    exact ⟨h.received, h.ticks, by simp, h.empty, h.lower, h.upper, h.stored, by simp, by simp,
      by simp⟩
  | timer =>
    have hmul : ∀ t : Int, t * ((s.completed + 1 : Nat) : Int) = t * s.completed + t := by
      intro t
      rw [Int.natCast_succ, Int.mul_add, Int.mul_one]
    refine ⟨h.received, h.ticks, fun htcl => ?_, by simp, fun t ht => ?_, fun t ht => ?_,
      fun _ => ⟨by simp [hmin], by simp [hmax]⟩, by simp, by simp, by simp⟩
    · exact congrArg (· + td) (h.total htcl)
    · obtain ⟨hin, hle⟩ := h.lower t ht
      obtain rfl : low = t := Option.some.inj (hmin.symm.trans ht)
      refine ⟨hin, ?_⟩
      dsimp only
      rw [hmul]
      omega
    · obtain ⟨hin, hle⟩ := h.upper t ht
      obtain rfl : high = t := Option.some.inj (hmax.symm.trans ht)
      refine ⟨hin, ?_⟩
      dsimp only
      rw [hmul]
      omega

/-- Every moment keeps the ledger, where the times stay in range. -/
theorem ServiceTimes.Ledger.step {s : ServiceTimes} (h : s.Ledger) {moment : Moment}
    (hsteady : Steady s moment) : (s.step moment).Ledger := by
  have hsame : ∀ progress pumping, (∀ caller td, progress = .ended caller td → InRange td) →
      (∀ caller td, progress ≠ .minStored caller td) →
      (∀ caller td, progress ≠ .maxStored caller td) →
      ServiceTimes.Ledger { s with progress := progress, pumping := pumping } :=
    fun progress pumping hended hno hno' => ⟨h.received, h.ticks, h.total, h.empty, h.lower,
      h.upper, h.stored, hended, fun caller td heq => absurd heq (hno caller td),
      fun caller td heq => absurd heq (hno' caller td)⟩
  cases moment with
  | tick => exact h.tick hsteady
  | republish =>
    unfold ServiceTimes.step
    dsimp only
    split
    · exact hsame _ s.pumping (by simp) (by simp) (by simp)
    · exact h
  | ended td =>
    unfold ServiceTimes.step
    dsimp only
    split
    · refine hsame _ s.pumping (fun caller' td' heq => ?_) (by simp) (by simp)
      cases heq
      exact hsteady
    · exact h
  | store =>
    cases hprogress : s.progress with
    | ended caller td => exact h.storeMin hprogress
    | minStored caller td => exact h.storeMax hprogress
    | maxStored caller td => exact h.storeTotal hprogress
    | idle | running =>
      simp only [ServiceTimes.step, hprogress]
      exact h
  | thrown stops =>
    unfold ServiceTimes.step
    dsimp only
    split
    · exact hsame _ _ (by simp) (by simp) (by simp)
    · exact h
  | read => exact h

/-! ## Reads -/

theorem ofInt_toNat {n : Int} (h : 0 ≤ n) (hlt : n < 4294967296) :
    ((BitVec.ofInt 32 n).toNat : Int) = n := by
  rw [BitVec.toNat_ofInt]
  omega

theorem exportTime_toNat {td : Int} (h : InRange td) :
    ((exportTime (some td)).toNat : Int) = td / 1000 := by
  obtain ⟨hnonneg, hlt⟩ := h
  unfold exportTime totalMilliseconds
  dsimp only
  rw [Int.tdiv_eq_ediv_of_nonneg hnonneg]
  exact ofInt_toNat (by omega) (by omega)

/-- Where every tick has completed its query and no Tcl command has, the exported values are those
of the completed timer queries. -/
theorem ServiceTimes.Ledger.coherent {s : ServiceTimes} (h : s.Ledger)
    (hcompleted : 0 < s.completed) (hticks : s.ticks = s.completed) (htcl : s.tclCompleted = 0) :
    s.Coherent := by
  obtain ⟨low, hmin⟩ := Option.ne_none_iff_exists'.mp (h.stored hcompleted).1
  obtain ⟨high, hmax⟩ := Option.ne_none_iff_exists'.mp (h.stored hcompleted).2
  obtain ⟨hlow, hlower⟩ := h.lower low hmin
  obtain ⟨hhigh, hupper⟩ := h.upper high hmax
  have hlowMs := exportTime_toNat hlow
  have hhighMs := exportTime_toNat hhigh
  unfold InRange at hlow hhigh
  have hlt := h.ticks
  have hpos : (0 : Int) < s.completed := Int.natCast_pos.mpr hcompleted
  have hnonneg : 0 ≤ s.completedTime :=
    (Int.mul_nonneg hlow.1 (Int.natCast_nonneg _)).trans hlower
  have hreceived : s.received.toNat = s.completed := by
    rw [h.received, BitVec.toNat_ofNat, hticks]
    omega
  have hmean : (totalMilliseconds s.totalRefreshTime).tdiv s.received.toNat =
      s.completedTime / (1000 * s.completed) := by
    rw [h.total htcl, hreceived, totalMilliseconds, Int.tdiv_eq_ediv_of_nonneg hnonneg,
      Int.tdiv_eq_ediv_of_nonneg (Int.ediv_nonneg hnonneg (by omega)),
      Int.ediv_ediv_of_nonneg (by omega)]
  have hquotient : s.completedTime / (1000 * s.completed) =
      s.completedTime / s.completed / 1000 := by
    rw [Int.mul_comm, Int.ediv_ediv_of_nonneg (Int.natCast_nonneg _)]
  have hle : low / 1000 ≤ s.completedTime / (1000 * s.completed) := by
    rw [hquotient]
    exact Int.ediv_le_ediv (by omega) ((Int.le_ediv_iff_mul_le hpos).mpr hlower)
  have hge : s.completedTime / (1000 * s.completed) ≤ high / 1000 := by
    rw [hquotient]
    exact Int.ediv_le_ediv (by omega) (Int.ediv_le_of_le_mul hpos hupper)
  have hexport : (s.exportMean.toNat : Int) = s.completedTime / (1000 * s.completed) := by
    unfold ServiceTimes.exportMean
    rw [if_pos (by rw [BitVec.lt_def, hreceived]; exact hcompleted), hmean]
    exact ofInt_toNat (by omega) (by omega)
  refine ⟨?_, ?_, hexport⟩
  · rw [hmin, BitVec.le_def]
    omega
  · rw [hmax, BitVec.le_def]
    omega

/-- Every read is coherent in every run in which, at each read, every tick so far has completed its
query and no Tcl command has. -/
theorem reads_coherent (moments : List Moment)
    (h : Runs.Guarded ServiceTimes.step Steady {} moments) :
    Runs.Guarded ServiceTimes.step ReadsCoherent {} moments := by
  refine h.mono_of_invariant ServiceTimes.Ledger (fun s moment h hsteady => h.step hsteady)
    (fun s moment h hsteady => ?_) ?_
  · rintro rfl hcompleted
    obtain ⟨hticks, htcl⟩ := hsteady hcompleted
    exact h.coherent hcompleted hticks htcl
  · exact ⟨rfl, by decide, fun _ => rfl, fun _ => rfl, by simp, by simp, by simp, by simp, by simp,
      by simp⟩

/-- One tick that completes its query, and one that has not yet. -/
def secondTick : List Moment :=
  [.tick, .ended 10000, .store, .store, .store, .tick, .read]

/-- While the second tick runs, the mean is half the minimum. -/
theorem second_tick_lowers_mean :
    ¬ Runs.Guarded ServiceTimes.step ReadsCoherent {} secondTick := by
  intro h
  have hread := h.2.2.2.2.2.2.1 rfl (by decide)
  exact absurd hread.min_le_mean (by decide)

theorem sample_reads_coherent : Runs.Guarded ServiceTimes.step ReadsCoherent {}
    [.tick, .ended 10000, .store, .store, .store, .read] := by
  refine reads_coherent _ ⟨?_, ?_, trivial, trivial, trivial, ?_, trivial⟩
  · exact Nat.lt_of_sub_eq_succ rfl
  · exact ⟨by decide, by decide⟩
  · exact fun _ => ⟨rfl, rfl⟩

/-! ## Runs of the timer and of the commands -/

/-- The times of an instance between two of its steps. -/
structure Shows (s : ServiceTimes) (poller : Poller) : Prop where
  received : s.received = poller.state.stats .timerQueryReceived
  minRefreshTime : s.minRefreshTime = poller.state.minRefreshTime
  maxRefreshTime : s.maxRefreshTime = poller.state.maxRefreshTime
  totalRefreshTime : s.totalRefreshTime = poller.state.totalRefreshTime
  progress : s.progress = .idle
  pumping : s.pumping = poller.running

variable {platform : Platform} {config : Config}

/-- A query stores its times when it returns, and none where it throws. -/
theorem httpPsychQueryOn_times (flags : QueryFlags) (input : QueryInput) (own : List Nat)
    (p : State × Multi) :
    let r := httpPsychQueryOn platform config flags input own p
    (r.1 = .ok () ∧ SameTimes (p.1.recordTime (input.t1 - input.t0)) r.2.1) ∨
      (∃ e, r.1 = .error e ∧ SameTimes p.1 r.2.1) := by
  have hsame := sameTimes_invariant platform config own p.1
  have hrounds := queryRoundsOn_invariant hsame flags input.t0 input.rounds
    (atol config.retryCount).toNat (firstSleep config) 0
    (q := ({ state := p.1, pending := own }, p.2)) (List.Subset.refl own) (.refl p.1)
  unfold httpPsychQueryOn
  cases hr : queryRoundsOn platform config flags input.t0 input.rounds
      (atol config.retryCount).toNat (firstSleep config) 0
      ({ state := p.1, pending := own }, p.2) with
  | mk r q =>
    rw [hr] at hrounds
    cases r with
    | error e => exact Or.inr ⟨e, rfl, hrounds⟩
    | ok _ =>
      have hclosed := closeHandle_invariant hsame own (r := .ok ()) hrounds
      refine Or.inl ⟨rfl, ⟨hclosed.count, ?_, ?_, ?_, hclosed.timerQueryReceived⟩⟩
      · simp only [State.recordTime]
        rw [hclosed.minRefreshTime]
      · simp only [State.recordTime]
        rw [hclosed.maxRefreshTime]
      · simp only [State.recordTime]
        rw [hclosed.totalRefreshTime]

theorem tally_received (p : State) :
    (p.tally .timerQueryReceived 1).stats .timerQueryReceived =
      p.stats .timerQueryReceived + 1 := by
  unfold State.tally Stats.add
  dsimp only
  rw [if_pos rfl]
  rfl

/-- A query that completes goes through the moments of its end and of the three stores. -/
theorem Shows.completed {s : ServiceTimes} {poller poller' : Poller} (h : Shows s poller)
    (caller : Caller) {td : Int}
    (hsame : SameTimes (poller.state.recordTime td) poller'.state)
    (hrunning : poller'.running = poller.running) :
    Shows ([.ended td, .store, .store, .store].foldl ServiceTimes.step
      { s with progress := .running caller }) poller' := by
  have hmin : some (storedMin s.minRefreshTime td) = poller'.state.minRefreshTime := by
    rw [h.minRefreshTime, hsame.minRefreshTime]
    rfl
  have hmax : some (storedMax s.maxRefreshTime td) = poller'.state.maxRefreshTime := by
    rw [h.maxRefreshTime, hsame.maxRefreshTime]
    rfl
  have htotal : s.totalRefreshTime + td = poller'.state.totalRefreshTime := by
    rw [h.totalRefreshTime, hsame.totalRefreshTime]
    rfl
  have hreceived := h.received.trans hsame.timerQueryReceived.symm
  have hpumping := h.pumping.trans hrunning.symm
  cases caller <;> exact ⟨hreceived, hmin, hmax, htotal, rfl, hpumping⟩

/-- A query that throws stores nothing. -/
theorem Shows.thrown {s : ServiceTimes} {poller poller' : Poller} (h : Shows s poller)
    (caller : Caller) {stops : Bool} (hsame : SameTimes poller.state poller'.state)
    (hrunning : poller'.running = (poller.running && !(stops && caller = .timer))) :
    Shows (ServiceTimes.step { s with progress := .running caller } (.thrown stops)) poller' :=
  ⟨h.received.trans hsame.timerQueryReceived.symm, h.minRefreshTime.trans hsame.minRefreshTime.symm,
    h.maxRefreshTime.trans hsame.maxRefreshTime.symm,
    h.totalRefreshTime.trans hsame.totalRefreshTime.symm, rfl,
    by rw [hrunning, ← h.pumping]; rfl⟩

/-- `OnTimer` starts its query. -/
theorem Shows.tick {s : ServiceTimes} {poller : Poller} (h : Shows s poller)
    (hrunning : poller.running = true) :
    s.step .tick = { s with
      received := s.received + 1, ticks := s.ticks + 1, progress := .running .timer } ∧
    Shows { s with received := s.received + 1, ticks := s.ticks + 1 }
      { poller with state := poller.state.tally .timerQueryReceived 1 } := by
  constructor
  · unfold ServiceTimes.step
    dsimp only
    rw [h.progress, if_pos (by rw [h.pumping, hrunning]; rfl), if_pos rfl]
  · exact ⟨by rw [h.received]; exact (tally_received _).symm, h.minRefreshTime, h.maxRefreshTime,
      h.totalRefreshTime, h.progress, h.pumping⟩

/-- While a command holds the lock, a tick counts and the query of the command goes on. -/
theorem Shows.locked {s : ServiceTimes} {poller : Poller} (h : Shows s poller)
    (hrunning : poller.running = true) :
    Shows ([.republish, .tick, .thrown false].foldl ServiceTimes.step s)
      { poller with state := poller.state.tally .timerQueryReceived 1 } := by
  have hstart : s.step .republish = { s with progress := .running .tcl } := by
    unfold ServiceTimes.step
    dsimp only
    rw [if_pos h.progress]
  have hskip : ServiceTimes.step { s with progress := .running .tcl } .tick =
      { s with received := s.received + 1, ticks := s.ticks + 1, progress := .running .tcl } := by
    unfold ServiceTimes.step
    dsimp only
    rw [if_pos (by rw [h.pumping, hrunning]; rfl), if_neg (by simp)]
  simp only [List.foldl_cons, List.foldl_nil]
  rw [hstart, hskip]
  exact (h.tick hrunning).2.thrown .tcl (.refl _) (by simp)

theorem tick_shows {s : ServiceTimes} {poller : Poller} (h : Shows s poller) (tick : Tick)
    (halive : (poller.tick platform config tick).1 = .ok ()) :
    ∃ moments : List Moment, Shows (moments.foldl ServiceTimes.step s)
      (poller.tick platform config tick).2 := by
  unfold Poller.tick at halive ⊢
  by_cases hrunning : poller.running = true
  · obtain ⟨hstep, hcounted⟩ := h.tick hrunning
    rw [if_pos hrunning] at halive ⊢
    dsimp only at halive ⊢
    by_cases hlocked : tick.locked = true
    · rw [if_pos hlocked]
      exact ⟨_, h.locked hrunning⟩
    · rw [if_neg hlocked] at halive ⊢
      have htimes := @httpPsychQueryOn_times platform config timerFlags tick.query
        (poller.state.tally .timerQueryReceived 1).own
        (poller.state.tally .timerQueryReceived 1, poller.multi)
      dsimp only at htimes
      cases hr : httpPsychQueryOn platform config timerFlags tick.query
          (poller.state.tally .timerQueryReceived 1).own
          (poller.state.tally .timerQueryReceived 1, poller.multi) with
      | mk r p =>
        rw [hr] at htimes halive
        rcases htimes with ⟨rfl, hsame⟩ | ⟨e, rfl, hsame⟩
        · refine ⟨[.tick, .ended (tick.query.t1 - tick.query.t0), .store, .store, .store], ?_⟩
          rw [List.foldl_cons, hstep]
          exact hcounted.completed .timer hsame rfl
        · have hthrown : ∀ stops, [.tick, .thrown stops].foldl ServiceTimes.step s =
              ServiceTimes.step { s with
                received := s.received + 1, ticks := s.ticks + 1,
                progress := .running .timer } (.thrown stops) := by
            intro stops
            rw [List.foldl_cons, hstep]
            rfl
          cases e with
          | undefined => cases halive
          | exception =>
            refine ⟨[.tick, .thrown true], ?_⟩
            rw [hthrown]
            exact hcounted.thrown .timer hsame (by simp)
          | invalidUsage =>
            refine ⟨[.tick, .thrown false], ?_⟩
            rw [hthrown]
            exact hcounted.thrown .timer hsame (by simp)
  · rw [if_neg hrunning]
    exact ⟨[], h⟩

theorem runCommand_times (hard : Bool) (query : QueryInput) (p : State × Multi) :
    let r := Poller.runCommand platform config hard query p
    (r.1 = .ok () ∧ SameTimes (p.1.recordTime (query.t1 - query.t0)) r.2.1) ∨
      (∃ e, r.1 = .error e ∧ SameTimes p.1 r.2.1) := by
  have hclosed : ∀ (own : List Nat) (p₀ : State) (p : State × Multi), SameTimes p₀ p.1 →
      SameTimes p₀ (own.foldl closeHandle p).1 := fun own p₀ p h =>
    closeHandle_invariant (sameTimes_invariant platform config own p₀) own (r := .ok ()) h
  rcases @httpPsychQueryOn_times platform config (tclFlags hard) query p.1.copies
    (p.1.duplicate, p.2) with ⟨hok, hsame⟩ | ⟨e, he, hsame⟩
  · exact Or.inl ⟨hok, hclosed _ _ _ ⟨hsame.count, hsame.minRefreshTime, hsame.maxRefreshTime,
      hsame.totalRefreshTime, hsame.timerQueryReceived⟩⟩
  · exact Or.inr ⟨e, he, hclosed _ _ _ ⟨hsame.count, hsame.minRefreshTime, hsame.maxRefreshTime,
      hsame.totalRefreshTime, hsame.timerQueryReceived⟩⟩

theorem republish_shows {s : ServiceTimes} {poller : Poller} (h : Shows s poller)
    (hard locked : Bool) (query : QueryInput) :
    ∃ moments : List Moment, Shows (moments.foldl ServiceTimes.step s)
      (poller.republish platform config hard locked query).2 := by
  have htally : SameTimes poller.state (poller.state.tally .tclQueryReceived 1) :=
    tally_sameTimes (by simp) 1 poller.state
  have hstart : s.step .republish = { s with progress := .running .tcl } := by
    unfold ServiceTimes.step
    dsimp only
    rw [if_pos h.progress]
  unfold Poller.republish
  dsimp only
  split
  · -- the command is refused
    refine ⟨[.republish, .thrown false], ?_⟩
    simp only [List.foldl_cons, List.foldl_nil]
    rw [hstart]
    exact h.thrown .tcl htally (by simp)
  · have htimes := @runCommand_times platform config hard query
      (poller.state.tally .tclQueryReceived 1, poller.multi)
    dsimp only at htimes
    rcases htimes with ⟨_, hsame⟩ | ⟨_, _, hsame⟩
    · refine ⟨[.republish, .ended (query.t1 - query.t0), .store, .store, .store], ?_⟩
      rw [List.foldl_cons, hstart]
      refine h.completed .tcl ?_ rfl
      exact ⟨hsame.count, hsame.minRefreshTime, hsame.maxRefreshTime, hsame.totalRefreshTime,
        hsame.timerQueryReceived.trans htally.timerQueryReceived⟩
    · refine ⟨[.republish, .thrown false], ?_⟩
      simp only [List.foldl_cons, List.foldl_nil]
      rw [hstart]
      exact h.thrown .tcl (htally.trans hsame) (by simp)

theorem poller_step_shows {s : ServiceTimes} {poller : Poller} (h : Shows s poller)
    (input : PollerInput) (halive : (poller.step platform config input).1 = .ok ()) :
    ∃ moments : List Moment, Shows (moments.foldl ServiceTimes.step s)
      (poller.step platform config input).2 := by
  cases input with
  | tick tick => exact tick_shows h tick halive
  | republish hard locked query => exact republish_shows h hard locked query
  | events events =>
    exact ⟨[], ⟨h.received, h.minRefreshTime, h.maxRefreshTime, h.totalRefreshTime, h.progress,
      h.pumping⟩⟩

/-- The times of an instance after any run that the process survives are those of a sequence of
moments. -/
theorem run_shows (platform : Platform) (config : Config) (inputs : List PollerInput) (count : Nat)
    (connections : Nat → Connection) (provider : Provider)
    (halive : (Poller.run platform config inputs (.init count connections provider)).1 = .ok ()) :
    ∃ moments : List Moment, Shows (moments.foldl ServiceTimes.step {})
      (Poller.run platform config inputs (.init count connections provider)).2 := by
  have hrun := Faults.forEach_outcome
    (fun r (poller : Poller) => r = .ok () →
      ∃ moments : List Moment, Shows (moments.foldl ServiceTimes.step {}) poller)
    (f := Poller.step platform config) (l := inputs) (s := .init count connections provider)
    (fun input _ poller hpoller halive => by
      obtain ⟨moments, hshows⟩ := hpoller rfl
      obtain ⟨further, hfurther⟩ := poller_step_shows hshows input halive
      exact ⟨moments ++ further, by rw [List.foldl_append]; exact hfurther⟩)
    (fun _ => ⟨[], ⟨rfl, rfl, rfl, rfl, rfl, rfl⟩⟩)
  exact hrun halive

end Psych
