import Psych.Lifecycle.StartupSessions
import Psych.Model.Sample

/-!
# A partial start-up is undone

Wherever the start-up ends, `Clear` releases what it acquired, each resource once and after what
needs it, the RFA context last. There are three exceptions. An event queue that RFA did not create
is destroyed, through a null pointer. The provider of a session that was not acquired is created,
through a null pointer, because `provider_t::Init` does not look at what `session_t::Init` returns.
And a console handler may still hold the event queue when `Clear` asserts that nothing else does.

`undone_iff` says that these are all.
-/

namespace Psych.Startup

open Faults Lifetimes

variable {env : Environment} {s : Objects} {r : RfaResource} {o : Owners}

/-! ## `Init` -/

/-- The start-up comes to the loop that creates the OMM providers. -/
def Environment.ProviderReady (env : Environment) (config : FullConfig) : Prop :=
  env.answer .newRfa = .given ∧ env.ContextReady config ∧
  env.answer .createEventQueue = .given ∧ env.answer .newQueueBlock ≠ .thrown ∧
  env.answer .newLog = .given ∧ env.answer .acquireLogger = .given ∧
  env.answer .createMonitor = .given ∧ env.answer .registerLoggerClient = .given ∧
  env.answer .newProvider = .given ∧
  (∀ i < config.sessions.length, env.answer (.newSession i) ≠ .thrown) ∧
  (∀ i < config.sessions.length, env.answer (.acquireSession i) ≠ .thrown) ∧
  env.answer .verifyVersion = .given

/-- The event queue is not created. -/
def Environment.NullQueue (env : Environment) (config : FullConfig) : Prop :=
  env.answer .newRfa = .given ∧ env.ContextReady config ∧ env.answer .createEventQueue = .refused

/-- The start-up goes on with a session that was not acquired. -/
def Environment.NullSession (env : Environment) (config : FullConfig) : Prop :=
  env.ProviderReady config ∧ env.MeetsNull config.sessions.length

def Environment.RfaStarted (env : Environment) (config : FullConfig) : Prop :=
  env.ProviderReady config ∧ env.Provides config.sessions.length ∧ env.answer .streams = .given

/-- The start-up is complete. -/
def Environment.Complete (env : Environment) (build : Build) (config : FullConfig) : Prop :=
  env.RfaStarted config ∧
  (build = .plugin →
    env.answer .newEventPump = .given ∧ env.answer .newEventThread = .given) ∧
  env.answer .remainder = .given

theorem cleared_empty : Cleared {} :=
  ⟨⟨.nil, fun r => by simp [Held]⟩, fun _ => rfl, rfl, rfl, rfl, rfl, rfl⟩

theorem startRfa_spec (env : Environment) (config : FullConfig) :
    Triple (fun s => s = {}) (env.startRfa config)
      (Leaves Undoable NullQueued (env.RfaStarted config)
        (env.NullQueue config ∨ env.NullSession config)
        (Phase (provided (List.range config.sessions.length)))) := by
  have hstreams : Triple (Phase (provided (List.range config.sessions.length))) (env.ask .streams)
      (Leaves Undoable NullQueued (env.answer .streams = .given) False
        (Phase (provided (List.range config.sessions.length)))) :=
    ask_spec env fun _ hs => hs.undoable
  have hinit := Leaves.andThen (providerInit_spec env) hstreams
  have hprovider := Leaves.andThen (newProvider_spec env config) hinit
  have hregister := Leaves.andThen (register_spec env) hprovider
  have hlog := Leaves.andThen (newLog_spec env) hregister
  have hqueue := Leaves.andThen (newQueue_spec env) hlog
  have hcontext := Leaves.andThen (rfaInit_spec env config) hqueue
  have hset := Triple.seq (Triple.modify (P := fun s : Objects => s = {})
    (f := fun s => { s with rfa := true, rfaCount := 1 }) (by rintro s rfl; rfl)) hcontext
  have hall := Leaves.andThen (ask_spec env (c := .newRfa) (F := Undoable) fun s (hs : s = {}) =>
    Or.inl (hs ▸ cleared_empty)) hset
  refine Leaves.congr hall ?_ ?_ fun _ h => h
  · simp only [Environment.RfaStarted, Environment.ProviderReady, List.mem_range]
    tauto
  · simp only [Environment.NullQueue, Environment.NullSession, Environment.ProviderReady,
      List.mem_range]
    tauto

/-- An exception that is caught is a failure like any other. -/
theorem catching_spec {P M F G : Objects → Prop} {A B : Prop} {x : Stage Bool}
    (h : Triple P x (Leaves F G A B M)) : Triple P (catching x) (Leaves F G A B M) := by
  refine Triple.handle (fun e s => Leaves F G A B M (.error e) s) ?_ ?_
  · refine h.mono (fun _ h => h) fun out s h => ?_
    cases out <;> exact h
  · rintro e s hs
    cases e <;> exact hs

/-- The owners of a complete start-up. -/
def running (build : Build) (config : FullConfig) : Owners :=
  { provided (List.range config.sessions.length) with eventPump := build = .plugin }

theorem Phase.pumped {config : FullConfig}
    (hs : Phase (provided (List.range config.sessions.length)) s) :
    Phase (running .plugin config)
      { s with eventPump := true, queueCount := s.queueCount + 1 } := by
  have hcount : s.queueCount + 1 =
      1 + 1 + 0 + (List.range config.sessions.length).length + 1 + 0 := by
    rw [hs.queueCount]
    rfl
  exact { hs with
    eventPump := rfl
    queueCount := hcount
    stable := { hs.stable with queue := fun h => by cases h } }

theorem startEventPump_spec (env : Environment) (config : FullConfig) :
    Triple (Phase (provided (List.range config.sessions.length))) env.startEventPump
      (Leaves Undoable NullQueued
        (env.answer .newEventPump = .given ∧ env.answer .newEventThread = .given) False
        (Phase (running .plugin config))) := by
  have hthread : Triple (Phase (running .plugin config)) (env.ask .newEventThread)
      (Leaves Undoable NullQueued (env.answer .newEventThread = .given) False
        (Phase (running .plugin config))) := ask_spec env fun _ hs => hs.undoable
  have hset := Triple.seq (Triple.modify
    fun s (hs : Phase (provided (List.range config.sessions.length)) s) => hs.pumped) hthread
  have hpump := Leaves.andThen (ask_spec env (c := .newEventPump) fun _ hs => hs.undoable) hset
  exact Leaves.congr hpump Iff.rfl (by simp) fun _ h => h

theorem init_spec (env : Environment) (build : Build) (config : FullConfig) :
    Triple (fun s => s = {}) (env.init build config)
      (Leaves Undoable NullQueued (env.Complete build config)
        (env.NullQueue config ∨ env.NullSession config) (Phase (running build config))) := by
  have hremainder : Triple (Phase (running build config)) (catching (env.ask .remainder))
      (Leaves Undoable NullQueued (env.answer .remainder = .given) False
        (Phase (running build config))) := catching_spec (ask_spec env fun _ hs => hs.undoable)
  have hrfa := catching_spec (startRfa_spec env config)
  cases build with
  | application =>
    exact Leaves.congr (Leaves.andThen hrfa hremainder) (by simp [Environment.Complete]) (by simp)
      fun _ h => h
  | plugin =>
    have hpump := Leaves.andThen (catching_spec (startEventPump_spec env config)) hremainder
    exact Leaves.congr (Leaves.andThen hrfa hpump) (by simp [Environment.Complete]) (by simp)
      fun _ h => h

theorem catching_no_throw (x : Stage Bool) (s : Objects) : (catching x s).1 ≠ .error .thrown := by
  have h : Triple (fun _ => True) (catching x) fun out _ => out ≠ .error .thrown := by
    refine Triple.handle (fun _ _ => True) ?_ ?_
    · intro t _
      cases (x t).1 with
      | ok b => exact fun h => by cases h
      | error e => exact trivial
    · intro e t _
      split
      · exact fun h => by cases h
      · rename_i hne
        exact fun h => hne (Except.error.inj h)
  exact h s trivial

theorem andThen_no_throw {x y : Stage Bool} (hx : ∀ s, (x s).1 ≠ .error .thrown)
    (hy : ∀ s, (y s).1 ≠ .error .thrown) (s : Objects) :
    ((x >>= fun b => if (!b) = true then pure false else y) s).1 ≠ .error .thrown := by
  cases hrun : x s with
  | mk out t =>
    cases out with
    | ok b =>
      rw [Step.bind_ok hrun]
      cases b with
      | true => exact hy t
      | false => exact fun h => by cases h
    | error e =>
      rw [Step.bind_error hrun]
      have hne := hx s
      rw [hrun] at hne
      exact hne

theorem init_no_throw (env : Environment) (build : Build) (config : FullConfig) (s : Objects) :
    (env.init build config s).1 ≠ .error .thrown := by
  cases build with
  | application => exact andThen_no_throw (catching_no_throw _) (catching_no_throw _) s
  | plugin =>
    exact andThen_no_throw (catching_no_throw _)
      (andThen_no_throw (catching_no_throw _) (catching_no_throw _)) s

/-! ## `Init`, then `Clear` -/

/-- A console handler holds the event queue when `Clear` comes to it. -/
def Environment.Overtaken (env : Environment) (build : Build) (config : FullConfig) : Prop :=
  build = .application ∧ env.Complete build config ∧ env.overtaken = true

/-- What goes wrong, or nothing is left. -/
def Ends (bad : Prop) : Except Stop Unit → Objects → Prop
  | .ok (), s => ¬ bad ∧ Cleared s
  | .error _, _ => bad

theorem Ends.cleared {bad : Prop} {out : Except Stop Unit}
    (h : endsIn (fun _ => Cleared) (fun _ _ => False) out s) (hbad : ¬ bad) : Ends bad out s := by
  cases out with
  | ok u => exact ⟨hbad, h⟩
  | error e => exact h.elim

theorem Ends.faulted {bad : Prop} {out : Except Stop Unit} {F : Stop → Objects → Prop}
    (h : endsIn (fun _ _ => False) F out s) (hbad : bad) : Ends bad out s := by
  cases out with
  | ok u => exact h.elim
  | error e => exact hbad

theorem clear_undoable :
    Triple Undoable clear (endsIn (fun _ => Cleared) fun _ _ => False) := by
  rintro s (hs | ⟨o, hs⟩)
  · exact clear_cleared s hs
  · exact clear_spec hs.stable hs.handlers rfl s hs.toClosing

theorem clear_twice : Triple Undoable (clear >>= fun _ => clear)
    (endsIn (fun _ => Cleared) fun _ _ => False) :=
  Triple.seq clear_undoable clear_cleared

theorem clear_nullQueued :
    Triple NullQueued clear (endsIn (fun _ _ => False) fun e _ => e = .crashed) := by
  rintro s ⟨o, hstable, hhandlers, hqueue, hs⟩
  exact clear_crashed hstable hhandlers hqueue s hs

variable {build : Build} {config : FullConfig} {t : Objects}

theorem lifetime_complete (h : env.init build config s = (.ok true, t)) :
    env.lifetime build config s = (env.mainLoop build >>= fun _ => clear >>= fun _ => clear) t := by
  unfold Environment.lifetime
  rw [Step.bind_ok h]
  rfl

theorem lifetime_failed (h : env.init build config s = (.ok false, t)) :
    env.lifetime build config s =
      if build = .plugin then (clear >>= fun _ => clear) t else clear t := by
  unfold Environment.lifetime
  rw [Step.bind_ok h]
  cases build <;> rfl

/-- `Clear` after a complete start-up. -/
theorem clear_complete (hcomplete : env.Complete build config)
    (hs : Phase (running build config) t) :
    Ends (env.Overtaken build config)
      ((env.mainLoop build >>= fun _ => clear >>= fun _ => clear) t).1
      ((env.mainLoop build >>= fun _ => clear >>= fun _ => clear) t).2 := by
  by_cases hover : build = .application ∧ env.overtaken = true
  · have hloop : env.mainLoop build t = (.ok (), { t with queueCount := t.queueCount + 1 }) := by
      unfold Environment.mainLoop
      rw [if_pos (by simp [hover])]
      rfl
    have hcount : t.queueCount + 1 = 1 + 1 + 0 + (List.range config.sessions.length).length +
        (decide (build = .plugin)).toNat + 1 := by
      rw [hs.queueCount]
      rfl
    have hheld : Closing { running build config with handlers := 1 } true []
        { t with queueCount := t.queueCount + 1 } :=
      { hs with queueCount := hcount }
    have hstable : ({ running build config with handlers := 1 } : Owners).Stable :=
      { hs.stable with }
    rw [Step.bind_ok hloop]
    have hclear : Triple (Closing { running build config with handlers := 1 } true [])
        (clear >>= fun _ => clear) (endsIn (fun _ _ => False) fun e _ => e = .asserted) :=
      Triple.stop (clear_asserted hstable Nat.one_pos rfl)
    exact Ends.faulted (hclear _ hheld) ⟨hover.1, hcomplete, hover.2⟩
  · have hloop : env.mainLoop build t = (.ok (), t) := by
      unfold Environment.mainLoop
      rw [if_neg (by simpa using hover)]
      rfl
    rw [Step.bind_ok hloop]
    exact Ends.cleared (clear_twice t hs.undoable) fun h => hover ⟨h.1, h.2.2⟩

theorem lifetime_spec (env : Environment) (build : Build) (config : FullConfig) :
    Ends (env.NullQueue config ∨ env.NullSession config ∨ env.Overtaken build config)
      (env.lifetime build config {}).1 (env.lifetime build config {}).2 := by
  have hinit := init_spec env build config {} rfl
  have hno := init_no_throw env build config {}
  cases hrun : env.init build config {} with
  | mk out t =>
    rw [hrun] at hinit hno
    cases out with
    | ok ok =>
      cases ok with
      | true =>
        obtain ⟨hcomplete, hbad, hs⟩ := hinit
        rw [← or_assoc, propext (or_iff_right hbad), lifetime_complete hrun]
        exact clear_complete hcomplete hs
      | false =>
        obtain ⟨hcomplete, hstate⟩ := hinit
        have hover : ¬ env.Overtaken build config := fun h => hcomplete h.2.1
        rw [← or_assoc, propext (or_iff_left hover), lifetime_failed hrun]
        rcases hstate with ⟨hbad, hs⟩ | ⟨hbad, hs⟩
        · split
          · exact Ends.cleared (clear_twice t hs) hbad
          · exact Ends.cleared (clear_undoable t hs) hbad
        · split
          · exact Ends.faulted (Triple.stop clear_nullQueued t hs) hbad
          · exact Ends.faulted (clear_nullQueued t hs) hbad
    | error e =>
      have hend : env.lifetime build config {} = (.error e, t) := Step.bind_error hrun
      rw [hend]
      cases e with
      | thrown => exact absurd rfl hno
      | crashed => exact hinit.imp_right Or.inl
      | asserted => exact hinit.elim

/-- A registration with RFA that delivers events to the event queue. -/
def RfaResource.isClient : RfaResource → Bool
  | .loggerClient | .errorClient _ | .loginClient _ => true
  | _ => false

theorem Needs.of_client (h : r.isClient = true) : Needs r .eventQueue := by
  cases r with
  | loggerClient => exact .loggerEvents
  | errorClient i => exact .errorEvents i
  | loginClient i => exact .loginEvents i
  | _ => cases h

/-- The start-up, as far as it came, is undone. -/
structure Undone (out : Except Stop Unit × Objects) : Prop where
  /-- No exception leaves, no call goes through a null pointer, and the assertions of `Clear`
  hold. -/
  ends : out.1 = .ok ()
  /-- At any time a resource was released as often as it was acquired, or once less. -/
  turns : ∀ r older, older <:+ out.2.acts →
    older.count (.release r) ≤ older.count (.acquire r) ∧
    older.count (.acquire r) ≤ older.count (.release r) + 1
  released : ∀ r, out.2.acts.count (.release r) = out.2.acts.count (.acquire r)
  clients : ∀ older, older <:+ out.2.acts → ∀ r, r.isClient = true → Held older r →
    Held older .eventQueue
  providers : ∀ older, older <:+ out.2.acts → ∀ i, Held older (.ommProvider i) →
    Held older (.session i)
  context : .acquire .context ∈ out.2.acts → out.2.acts.head? = some (.release .context)

theorem Cleared.undone {out : Except Stop Unit × Objects} (h : Cleared out.2)
    (hok : out.1 = .ok ()) : Undone out := by
  have hfree : ∀ r, ¬ Held out.2.acts r := by
    intro r hr
    have htrue := (h.held r).mp hr
    rw [h.null r] at htrue
    cases htrue
  exact {
    ends := hok
    turns := fun r older hsuffix => by
      rcases (h.tidy.of_suffix hsuffix).balance r with ⟨_, hcount⟩ | ⟨_, hcount⟩ <;> omega
    released := fun r => h.tidy.released (hfree r)
    clients := fun older hsuffix r hr hheld =>
      (h.tidy.of_suffix hsuffix).held_of_needs hheld (.of_client hr)
    providers := fun older hsuffix i hheld =>
      (h.tidy.of_suffix hsuffix).held_of_needs hheld (.ommProvider i)
    context := fun hmem =>
      h.tidy.last (fun r hr => .context hr) hfree (List.ne_nil_of_mem hmem) }

/-- The start-up is undone, wherever it ended, exactly when none of the three exceptions is
met. -/
theorem undone_iff (env : Environment) (build : Build) (config : FullConfig) :
    Undone (env.lifetime build config {}) ↔
      ¬ env.NullQueue config ∧ ¬ env.NullSession config ∧ ¬ env.Overtaken build config := by
  have hends := lifetime_spec env build config
  rw [← not_or, ← not_or]
  constructor
  · intro h
    rw [h.ends] at hends
    exact hends.1
  · intro h
    cases hrun : (env.lifetime build config {}).1 with
    | ok u =>
      rw [hrun] at hends
      exact hends.2.undone hrun
    | error e =>
      rw [hrun] at hends
      exact absurd hends h

/-- All calls succeed, apart from one. -/
def allBut (c : RfaCall) (answer : Answer) : Environment where
  answer := fun d => if d = c then answer else .given
  overtaken := false

/-- An application is left in each of the three ways: the event queue is not created, the session
is not acquired, a console handler is late. -/
theorem three_not_undone :
    ¬ Undone ((allBut .createEventQueue .refused).lifetime .application
      { sampleConfig with key := [] } {}) ∧
    ¬ Undone ((allBut (.acquireSession 0) .refused).lifetime .application
      { sampleConfig with key := [] } {}) ∧
    ¬ Undone (({ answer := fun _ => .given, overtaken := true } : Environment).lifetime .application
      { sampleConfig with key := [] } {}) := by
  refine ⟨fun h => ?_, fun h => ?_, fun h => ?_⟩
  all_goals
    have hends := h.ends
    revert hends
    decide

example : ((allBut (.registerErrorClient 0) .thrown).lifetime .application
    { sampleConfig with key := [] } {}).1 = .ok () := by decide

end Psych.Startup
