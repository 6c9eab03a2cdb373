import Psych.Lifecycle.Outcomes

/-!
# The start-up up to the log

* `rfaInit_spec`: `rfa_t::Init` leaves the context and the configuration database, and none of the
  staging databases.
* `newQueue_spec`: where RFA does not create the event queue, a null pointer is owned.
* `register_spec`: the log event provider has what it acquired.
-/

namespace Psych.Startup

open Faults Lifetimes

variable {env : Environment} {s : Objects} {r : RfaResource} {o : Owners}

/-! ## The RFA context -/

/-- In `rfa_t::Init`, with the resources `l`. -/
structure Opening (l : List RfaResource) (s : Objects) : Prop extends Ledger s where
  pointers : ∀ q, s.pointers q = true ↔ q ∈ l
  frame : s = { rfa := true, rfaCount := 1, pointers := s.pointers, acts := s.acts }

variable {l : List RfaResource}

theorem Opening.acquired (h : Opening l s) (hr : r ∉ l) (hneeds : ∀ q, Needs r q → q ∈ l) :
    Opening (r :: l) (s.acquired r) where
  toLedger := by
    refine h.toLedger.acquired ?_ fun q hq => (h.pointers q).mpr (hneeds q hq)
    by_contra hno
    exact hr ((h.pointers r).mp (by simpa using hno))
  pointers := by
    intro q
    rw [acquired_pointers, List.mem_cons, ← h.pointers q]
    split <;> simp [*]
  frame := by
    conv_lhs => rw [h.frame]
    rfl

theorem Opening.released (h : Opening l s) (hr : r ∈ l) (hneeded : ∀ q, Needs q r → q ∉ l) :
    Opening (l.filter (· ≠ r)) (s.released r) where
  toLedger := by
    refine h.toLedger.released ((h.pointers r).mpr hr) fun q hq => ?_
    by_contra hno
    exact hneeded q hq ((h.pointers q).mp (by simpa using hno))
  pointers := by
    intro q
    rw [released_pointers, List.mem_filter, ← h.pointers q]
    split <;> simp [*]
  frame := by
    conv_lhs => rw [h.frame]
    rfl

theorem Opening.reset (hneeded : ∀ q, ¬ Needs q r) :
    Triple (Opening l) (reset r)
      (endsIn (fun _ => Opening (l.filter (· ≠ r))) fun _ _ => False) := by
  refine Triple.gets_bind fun b => ?_
  cases b with
  | true =>
    rintro s ⟨hs, hr⟩
    exact hs.released ((hs.pointers r).mp hr) fun q hq => absurd hq (hneeded q)
  | false =>
    rintro s ⟨hs, hr⟩
    have hfree : r ∉ l := fun hmem => by simp [(hs.pointers r).mpr hmem] at hr
    have hsame : l.filter (· ≠ r) = l :=
      List.filter_eq_self.mpr fun q hq => decide_eq_true fun hqr : q = r => hfree (hqr ▸ hq)
    rw [hsame]
    exact hs

/-- What `rfa_t::Init` may leave, with the staging databases. -/
def Unfinished (s : Objects) : Prop :=
  ∃ l, .context ∈ l ∧ l ⊆ [.context, .staging, .registryStaging, .configDatabase] ∧ Opening l s

/-- The answers with which `rfa_t::Init` returns true. -/
def Environment.ContextReady (env : Environment) (config : FullConfig) : Prop :=
  env.answer .createStaging = .given ∧ (∀ c ∈ settings config, env.answer c ≠ .thrown) ∧
  env.answer .acquireConfig = .given ∧ env.answer .merge = .given ∧
  (config.key.isEmpty = false → env.answer .createRegistryStaging = .given ∧
    env.answer .load ≠ .thrown ∧ env.answer .mergeRegistry = .given)

theorem Opening.unfinished (hcontext : .context ∈ l)
    (hl : l ⊆ [.context, .staging, .registryStaging, .configDatabase]) :
    ∀ s, Opening l s → Unfinished s := fun _ h => ⟨l, hcontext, hl, h⟩

theorem mergeOverride_spec :
    Triple (Opening [.configDatabase, .staging, .context]) env.mergeOverride
      (Leaves Unfinished (fun _ => False) (env.answer .createRegistryStaging = .given ∧
        env.answer .load ≠ .thrown ∧ env.answer .mergeRegistry = .given) False Unfinished) := by
  intro s hs
  unfold Environment.mergeOverride
  cases hc : env.answer .createRegistryStaging with
  | given =>
    rw [Step.bind_ok (obtain_given hc)]
    have hstaged := hs.acquired (r := .registryStaging) (by simp) fun q hq => by
      cases hq
      simp
    have hrest : ∀ s, Opening [.registryStaging, .configDatabase, .context] s → Unfinished s :=
      Opening.unfinished (by simp) (by simp)
    have hmerge := Leaves.afterPass (G := fun _ => False) (carryOut_spec env (c := .load) hrest)
      (ask_spec env (c := .mergeRegistry) hrest)
    refine (Triple.seq (Opening.reset (r := .staging) (by rintro q ⟨⟩)) ?_) _ hstaged
    exact Leaves.congr hmerge (by simp) (by simp) hrest
  | refused =>
    rw [Step.bind_ok (obtain_refused hc)]
    have hrest : ∀ s, Opening [.configDatabase, .context] s → Unfinished s :=
      Opening.unfinished (by simp) (by simp)
    refine (Triple.seq (Opening.reset (r := .staging) (by rintro q ⟨⟩)) ?_) _ hs
    exact fun s hs => ⟨by simp, Or.inl ⟨id, hrest s hs⟩⟩
  | thrown =>
    rw [Step.bind_error (obtain_thrown hc)]
    exact ⟨by simp, Or.inl ⟨id, Opening.unfinished (by simp) (by simp) s hs⟩⟩

theorem populate_spec (config : FullConfig) :
    Triple (Opening [.context]) (env.populate config)
      (Leaves Unfinished (fun _ => False) (env.ContextReady config) False Unfinished) := by
  have hcontext := Opening.unfinished (l := [.context]) (by simp) (by simp)
  have hstaging := Opening.unfinished (l := [.staging, .context]) (by simp) (by simp)
  have hconfig :=
    Opening.unfinished (l := [.configDatabase, .staging, .context]) (by simp) (by simp)
  have hoverride : Triple (Opening [.configDatabase, .staging, .context])
      (if config.key.isEmpty = true then pure true else env.mergeOverride)
      (Leaves Unfinished (fun _ => False) (config.key.isEmpty = false →
        env.answer .createRegistryStaging = .given ∧ env.answer .load ≠ .thrown ∧
        env.answer .mergeRegistry = .given) False Unfinished) := by
    refine Triple.ite (fun hkey => ?_) fun hkey => ?_
    · exact fun s hs => ⟨by simp [hkey], id, hconfig s hs⟩
    · exact Leaves.congr mergeOverride_spec (by simp [hkey]) Iff.rfl fun _ h => h
  have hmerge := Leaves.andThen (ask_spec env (c := .merge) hconfig) hoverride
  have hacquire := Leaves.andThen (obtain_spec env (c := .acquireConfig) hstaging fun s hs =>
    hs.acquired (by simp) fun q hq => by cases hq; simp) hmerge
  have hsettings := Leaves.afterPass (forEach_carryOut_spec env (l := settings config) hstaging)
    hacquire
  have hstart := Leaves.andThen (obtain_spec env (c := .createStaging) hcontext fun s hs =>
    hs.acquired (by simp) fun q hq => by cases hq; simp) hsettings
  exact Leaves.congr hstart (by simp [Environment.ContextReady]) (by simp) fun _ h => h

theorem Opening.phase (h : Opening l s) (hcontext : .context ∈ l)
    (hl : l ⊆ [.context, .configDatabase]) : Phase {} s where
  toLedger := h.toLedger
  placed := by
    intro q hq
    have hmem := hl ((h.pointers q).mp hq)
    simp only [List.mem_cons, List.not_mem_nil, or_false] at hmem
    rcases hmem with rfl | rfl <;> trivial
  context := (h.pointers .context).mpr hcontext
  rfa := by rw [h.frame]
  eventQueue := by rw [h.frame]
  logCount := by rw [h.frame]
  providerCount := by rw [h.frame]
  sessions := by rw [h.frame]
  eventPump := by rw [h.frame]
  rfaCount := by rw [h.frame]; rfl
  queueCount := by rw [h.frame]; rfl
  live := by
    by_contra hno
    have hmem := hl ((h.pointers .eventQueue).mp (by simpa using hno))
    simp at hmem
  gone := by simp
  stable := ⟨rfl, rfl, Nat.zero_le 1, Nat.zero_le 1, fun _ => rfl, fun _ => ⟨rfl, rfl, rfl⟩⟩
  handlers := rfl

theorem leaveScope_spec :
    Triple Unfinished leaveScope (endsIn (fun _ => Phase {}) fun _ _ => False) := by
  rintro s ⟨l, hcontext, hl, hs⟩
  refine (Triple.seq (Opening.reset (r := .staging) (by rintro q ⟨⟩)) ?_) s hs
  refine (Opening.reset (r := .registryStaging) (by rintro q ⟨⟩)).mono (fun _ h => h)
    fun out t h => ?_
  cases out with
  | ok u =>
    refine h.phase (by simp [hcontext]) fun q hq => ?_
    simp only [List.mem_filter, decide_eq_true_eq] at hq
    have hmem := hl hq.1.1
    simp only [List.mem_cons, List.not_mem_nil, or_false] at hmem ⊢
    tauto
  | error e => exact h

theorem Phase.undoable (h : Phase o s) : Undoable s := Or.inr ⟨o, h⟩

/-- The staging databases go with the scope, however `rfa_t::Init` ends. -/
theorem rfaInit_spec (env : Environment) (config : FullConfig) :
    Triple (fun s => s = { rfa := true, rfaCount := 1 }) (env.rfaInit config)
      (Leaves Undoable NullQueued (env.ContextReady config) False (Phase {})) := by
  refine Triple.seq (M := Opening [.context]) (Triple.modify ?_) ?_
  · rintro s rfl
    refine ⟨?_, fun q => ?_, rfl⟩
    · refine Ledger.acquired ⟨.nil, fun q => by simp [Held]⟩ rfl fun q hq => ?_
      cases hq
      contradiction
    · simp
  refine Triple.bind (fun ok s => (ok = true ↔ env.ContextReady config) ∧ Unfinished s) ?_
    fun ok => ?_
  · refine Triple.handle (fun e s => e = .thrown ∧ ¬ env.ContextReady config ∧ Unfinished s) ?_ ?_
    · refine (populate_spec config).mono (fun _ h => h) fun out s h => ?_
      cases out with
      | ok b =>
        cases b with
        | true => exact ⟨iff_of_true rfl h.1, h.2.2⟩
        | false => exact ⟨iff_of_false Bool.false_ne_true h.not_good, Fails.mild h⟩
      | error e =>
        cases e with
        | thrown => exact ⟨rfl, h.not_good, Fails.mild h⟩
        | crashed => exact h.elim
        | asserted => exact h.elim
    · rintro e s ⟨rfl, hready, hs⟩
      refine (Triple.seq leaveScope_spec (Triple.fail fun t ht => ?_)) s hs
      exact ⟨hready, Or.inl ⟨id, ht.undoable⟩⟩
  · rintro s ⟨hok, hs⟩
    refine (Triple.seq leaveScope_spec fun t ht => ?_) s hs
    cases ok with
    | true => exact ⟨hok.mp rfl, id, ht⟩
    | false => exact ⟨fun hready => Bool.false_ne_true (hok.mpr hready), Or.inl ⟨id, ht.undoable⟩⟩

/-! ## The event queue -/

theorem unwinding_ok {α : Type} {x : Stage α} {exit : Stage Unit} {a : α} {t : Objects}
    (h : x s = (.ok a, t)) : unwinding x exit s = (.ok a, t) := by
  unfold unwinding Step.handle
  rw [h]

theorem unwinding_thrown {α : Type} {x : Stage α} {exit : Stage Unit} {t : Objects}
    (h : x s = (.error .thrown, t)) :
    unwinding x exit s = (exit >>= fun _ => Step.fail .thrown) t := by
  unfold unwinding Step.handle
  rw [h]
  rfl

/-- No client is registered yet. -/
theorem Phase.unregistered (h : Phase {} s) {q : RfaResource} (hneeds : Needs q .eventQueue) :
    s.pointers q = false := h.unneeded h.live hneeds

/-- The pointer to the event queue, null or not, gets its control block. -/
theorem Phase.own_queue (hs : Phase {} s) {t : Objects} (hledger : Ledger t)
    (ht : t = { s with pointers := t.pointers, acts := t.acts })
    (hpointers : ∀ q, q ≠ .eventQueue → t.pointers q = s.pointers q) :
    Closing { eventQueue := true } (t.pointers .eventQueue) []
      { t with eventQueue := true, queueCount := 1 } where
  toLedger := ⟨hledger.tidy, hledger.held⟩
  placed := by
    intro q hq
    by_cases hqueue : q = .eventQueue
    · subst hqueue
      rfl
    · have hplaced := hs.placed q ((hpointers q hqueue).symm.trans hq)
      cases q <;> first | exact hplaced | contradiction
  context := (hpointers .context (by simp)).trans hs.context
  rfa := by rw [ht]; exact hs.rfa
  eventQueue := rfl
  logCount := by rw [ht]; exact hs.logCount
  providerCount := by rw [ht]; exact hs.providerCount
  sessions := by rw [ht]; exact hs.sessions
  eventPump := by rw [ht]; exact hs.eventPump
  rfaCount := by rw [ht]; exact hs.rfaCount
  queueCount := rfl
  live := rfl
  gone := by simp

/-- The event queue is destroyed again where there is no control block. -/
theorem Phase.unqueued (hs : Phase {} s) (hledger : Ledger (s.acquired .eventQueue)) :
    Phase {} ((s.acquired .eventQueue).released .eventQueue) := by
  have hpointers : ∀ q, ((s.acquired .eventQueue).released .eventQueue).pointers q =
      s.pointers q := by
    intro q
    rw [released_pointers, acquired_pointers]
    split
    · rename_i hq
      rw [hq]
      exact hs.live.symm
    · rfl
  refine { hs with
    toLedger := hledger.released (by rw [acquired_pointers, if_pos rfl]) fun q hq => ?_
    placed := fun q hq => hs.placed q ((hpointers q).symm.trans hq)
    context := (hpointers _).trans hs.context
    live := (hpointers _).trans hs.live
    gone := by simp }
  have hnull := hs.unregistered hq
  rw [acquired_pointers, if_neg (by rintro rfl; cases hq)]
  exact hnull

theorem stable_queue : ({ eventQueue := true } : Owners).Stable :=
  ⟨rfl, rfl, Nat.zero_le 1, Nat.zero_le 1, fun _ => rfl, fun h => by cases h⟩

/-- Where the queue is not created, the null pointer is stored, or destroyed at once. -/
theorem newQueue_spec (env : Environment) :
    Triple (Phase {}) env.newQueue (Leaves Undoable NullQueued
      (env.answer .createEventQueue = .given ∧ env.answer .newQueueBlock ≠ .thrown)
      (env.answer .createEventQueue = .refused) (Phase { eventQueue := true })) := by
  intro s hs
  unfold Environment.newQueue
  cases hc : env.answer .createEventQueue with
  | given =>
    rw [Step.bind_ok (obtain_given hc)]
    have hledger : Ledger (s.acquired .eventQueue) := by
      refine hs.toLedger.acquired hs.live fun q hq => ?_
      cases hq
      exact hs.context
    have hlive : (s.acquired .eventQueue).pointers .eventQueue = true := by
      rw [acquired_pointers, if_pos rfl]
    by_cases hblock : env.answer .newQueueBlock = .thrown
    · have hdestroy := Step.bind_ok (f := fun _ => (Step.fail .thrown : Stage Unit))
        (destroyQueue_live hlive)
      rw [Step.bind_error ((unwinding_thrown (carryOut_thrown hblock)).trans hdestroy)]
      exact ⟨fun hgood => hgood.2 hblock, Or.inl ⟨by simp, (hs.unqueued hledger).undoable⟩⟩
    · rw [Step.bind_ok (unwinding_ok (carryOut_passed hblock))]
      have hqueue := hs.own_queue hledger rfl fun q hq => if_neg hq
      rw [hlive] at hqueue
      exact ⟨⟨rfl, hblock⟩, by simp, hqueue, stable_queue, rfl⟩
  | refused =>
    rw [Step.bind_ok (obtain_refused hc)]
    by_cases hblock : env.answer .newQueueBlock = .thrown
    · have hcrash := Step.bind_error (f := fun _ => (Step.fail .thrown : Stage Unit))
        (destroyQueue_null hs.live)
      rw [Step.bind_error ((unwinding_thrown (carryOut_thrown hblock)).trans hcrash)]
      exact rfl
    · rw [Step.bind_ok (unwinding_ok (carryOut_passed hblock))]
      have hqueue := hs.own_queue hs.toLedger rfl fun q _ => rfl
      have hnull : s.pointers .eventQueue = false := hs.live
      rw [hnull] at hqueue
      exact ⟨by simp, Or.inr ⟨rfl, { eventQueue := true }, stable_queue, rfl, rfl, hqueue⟩⟩
  | thrown =>
    rw [Step.bind_error (obtain_thrown hc)]
    exact ⟨by simp, Or.inl ⟨by simp, hs.undoable⟩⟩

/-! ## The log -/

theorem Phase.acquired (h : Phase o s) (hfree : s.pointers r = false)
    (hneeds : ∀ q, Needs r q → s.pointers q = true) (hplace : o.place r)
    (hqueue : r ≠ .eventQueue) : Phase o (s.acquired r) :=
  { h with
    toAt := h.toAt.acquired hfree hneeds hplace
    live := by rw [acquired_pointers, if_neg (Ne.symm hqueue), h.live]
    gone := by simp }

/-- The owners once the log event provider is there. -/
def logged : Owners := { eventQueue := true, logs := 1 }

theorem logged_stable : logged.Stable :=
  ⟨rfl, rfl, Nat.le_refl 1, Nat.zero_le 1, fun _ => rfl, fun h => by cases h⟩

theorem newLog_spec (env : Environment) :
    Triple (Phase { eventQueue := true }) env.newLog
      (Leaves Undoable NullQueued (env.answer .newLog = .given) False
        fun s => Phase logged s ∧ s.pointers .logger = false) := by
  have hset : Triple (Phase { eventQueue := true })
      (do
        Step.modify fun s => { s with logCount := 1, queueCount := s.queueCount + 1 }
        return true)
      (Leaves Undoable NullQueued True False
        fun s => Phase logged s ∧ s.pointers .logger = false) := by
    intro s hs
    have hlogger : s.pointers .logger = false := by
      by_contra hno
      exact Nat.lt_irrefl 0 (hs.placed .logger (by simpa using hno))
    have hplaced : ∀ q, s.pointers q = true → logged.place q := by
      intro q hq
      have hold := hs.placed q hq
      cases q with
      | logger => exact Nat.one_pos
      | _ => exact hold
    have hcount : s.queueCount + 1 = 2 := by
      rw [hs.queueCount]
      rfl
    exact ⟨trivial, id, { hs with
      placed := hplaced
      logCount := rfl
      queueCount := hcount
      stable := logged_stable }, hlogger⟩
  exact Leaves.congr (Leaves.andThen (ask_spec env fun _ hs => hs.undoable) hset) (by simp)
    (by simp) fun _ h => h

theorem register_spec (env : Environment) :
    Triple (fun s => Phase logged s ∧ s.pointers .logger = false) env.register
      (Leaves Undoable NullQueued (env.answer .acquireLogger = .given ∧
        env.answer .createMonitor = .given ∧ env.answer .registerLoggerClient = .given) False
        (Phase logged)) := by
  have hclient : Triple (fun s => Phase logged s ∧ s.pointers .monitor = true ∧
        s.pointers .loggerClient = false)
      (env.obtain .registerLoggerClient .loggerClient)
      (Leaves Undoable NullQueued (env.answer .registerLoggerClient = .given) False
        (Phase logged)) := by
    refine obtain_spec env (fun _ hs => hs.1.undoable) fun s hs => ?_
    refine hs.1.acquired hs.2.2 (fun q hq => ?_) trivial (by simp)
    cases hq with
    | context => exact hs.1.context
    | loggerClient => exact hs.2.1
    | loggerEvents => exact hs.1.live
  have hmonitor : Triple (fun s => Phase logged s ∧ s.pointers .logger = true ∧
        s.pointers .monitor = false)
      (env.obtain .createMonitor .monitor)
      (Leaves Undoable NullQueued (env.answer .createMonitor = .given) False fun s =>
        Phase logged s ∧ s.pointers .monitor = true ∧ s.pointers .loggerClient = false) := by
    refine obtain_spec env (fun _ hs => hs.1.undoable) fun s hs => ⟨?_, by simp, ?_⟩
    · refine hs.1.acquired hs.2.2 (fun q hq => ?_) trivial (by simp)
      cases hq with
      | context => exact hs.1.context
      | monitor => exact hs.2.1
    · rw [acquired_pointers, if_neg (by simp)]
      exact hs.1.unneeded hs.2.2 .loggerClient
  have hlogger : Triple (fun s => Phase logged s ∧ s.pointers .logger = false)
      (env.obtain .acquireLogger .logger)
      (Leaves Undoable NullQueued (env.answer .acquireLogger = .given) False
        fun s => Phase logged s ∧ s.pointers .logger = true ∧ s.pointers .monitor = false) := by
    refine obtain_spec env (fun _ hs => hs.1.undoable) fun s hs => ⟨?_, by simp, ?_⟩
    · refine hs.1.acquired hs.2 (fun q hq => ?_) Nat.one_pos (by simp)
      cases hq
      exact hs.1.context
    · rw [acquired_pointers, if_neg (by simp)]
      exact hs.1.unneeded hs.2 .monitor
  exact Leaves.congr (Leaves.andThen hlogger (Leaves.andThen hmonitor hclient)) Iff.rfl (by simp)
    fun _ h => h

end Psych.Startup
