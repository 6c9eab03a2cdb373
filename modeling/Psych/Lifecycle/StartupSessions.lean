import Psych.Lifecycle.StartupContext

/-!
# The start-up of the provider

* `newProvider_spec`: the constructor leaves all sessions or none.
* `createOMMProvider_spec`, `createOMMProvider_null`: a session that was acquired creates its
  provider and registers its clients as far as it comes; one that was not is called through a null
  pointer.
* `providerInit_spec`: so `provider_t::Init` crashes exactly when it comes to such a session.
-/

namespace Psych.Startup

open Faults Lifetimes

variable {env : Environment} {s : Objects} {r : RfaResource} {o : Owners}

/-! ## The provider -/

/-- The owners while the provider is constructed. -/
def built (sessions : List Nat) : Owners :=
  { eventQueue := true, logs := 1, building := 1, sessions := sessions }

/-- The owners once the provider is there. -/
def provided (sessions : List Nat) : Owners :=
  { eventQueue := true, logs := 1, providers := 1, sessions := sessions }

/-- No session is acquired yet. -/
structure Building (sessions : List Nat) (s : Objects) : Prop
    extends Closing (built sessions) true [] s where
  null : ∀ i, s.pointers (.session i) = false

theorem newSession_spec {done : List Nat} {i : Nat} :
    Triple (Building done) (env.newSession i)
      (Passes (fun s => ∃ done, Building done s) (env.answer (.newSession i) ≠ .thrown)
        (Building (done ++ [i]))) := by
  intro s hs
  unfold Environment.newSession
  by_cases hc : env.answer (.newSession i) = .thrown
  · rw [Step.bind_error (carryOut_thrown hc)]
    exact ⟨not_not_intro hc, done, hs⟩
  · rw [Step.bind_ok (carryOut_passed hc)]
    have hplaced : ∀ q, s.pointers q = true → (built (done ++ [i])).place q := by
      intro q hq
      have hold := hs.placed q hq
      cases q with
      | session j => exact List.mem_append_left _ hold
      | _ => exact hold
    have hrfaCount : s.rfaCount + 1 = 1 + 0 + 1 + (done ++ [i]).length := by
      rw [hs.rfaCount, List.length_append]
      rfl
    have hqueueCount : s.queueCount + 1 = 1 + 1 + 0 + (done ++ [i]).length + 0 + 0 := by
      rw [hs.queueCount, List.length_append]
      simp only [built, List.length_singleton, Bool.toNat_true, Bool.toNat_false]
      omega
    have hsessions : s.sessions ++ [i] = done ++ [i] := by
      rw [hs.sessions]
      rfl
    exact ⟨hc, { hs with
      placed := hplaced
      sessions := hsessions
      rfaCount := hrfaCount
      queueCount := hqueueCount }⟩

theorem newSessions_spec (n : Nat) :
    Triple (Building []) (forEach env.newSession (List.range n))
      (Passes (fun s => ∃ done, Building done s)
        (∀ i ∈ List.range n, env.answer (.newSession i) ≠ .thrown) (Building (List.range n))) :=
  Passes.forEach Building fun _ _ _ _ => newSession_spec

/-- The provider is taken apart again where a session cannot be allocated. -/
theorem unwinding_sessions_spec (env : Environment) (n : Nat) :
    Triple (Building []) (unwinding (forEach env.newSession (List.range n)) destroyProvider)
      (Passes Undoable (∀ i ∈ List.range n, env.answer (.newSession i) ≠ .thrown)
        (Building (List.range n))) := by
  refine Triple.handle (fun e s => e = .thrown ∧
    (¬ ∀ i ∈ List.range n, env.answer (.newSession i) ≠ .thrown) ∧ ∃ done, Building done s) ?_ ?_
  · refine (newSessions_spec n).mono (fun _ h => h) fun out s h => ?_
    cases out with
    | ok u => exact h
    | error e =>
      cases e with
      | thrown => exact ⟨rfl, h⟩
      | crashed => exact h.elim
      | asserted => exact h.elim
  · rintro e s ⟨rfl, hn, done, hs⟩
    refine (Triple.seq (destroyProvider_spec (o := { logged with sessions := done }) rfl)
      (Triple.fail fun t ht => ?_)) s hs.toClosing
    have hphase : Phase logged t := { ht with stable := logged_stable, handlers := rfl }
    exact ⟨hn, hphase.undoable⟩

theorem provided_stable (sessions : List Nat) : (provided sessions).Stable :=
  ⟨rfl, rfl, Nat.le_refl 1, Nat.le_refl 1, fun h => absurd h Nat.one_ne_zero, fun h => by cases h⟩

theorem Building.provided {sessions : List Nat} (hs : Building sessions s) :
    Phase (provided sessions) { s with providerCount := 1 } :=
  { hs with
    providerCount := rfl
    rfaCount := hs.rfaCount
    stable := provided_stable sessions
    handlers := rfl }

theorem Phase.building (hs : Phase logged s) :
    Building [] { s with rfaCount := s.rfaCount + 1 } := by
  have hnull : ∀ i, s.pointers (.session i) = false := by
    intro i
    by_contra hno
    have hplaced := hs.placed (.session i) (by simpa using hno)
    cases hplaced
  have hcount : s.rfaCount + 1 = 2 := by
    rw [hs.rfaCount]
    rfl
  exact { hs with rfaCount := hcount, null := hnull }

theorem newProvider_spec (env : Environment) (config : FullConfig) :
    Triple (Phase logged) (env.newProvider config)
      (Leaves Undoable NullQueued (env.answer .newProvider = .given ∧
        ∀ i ∈ List.range config.sessions.length, env.answer (.newSession i) ≠ .thrown) False
        fun s => Phase (provided (List.range config.sessions.length)) s ∧
          ∀ i, s.pointers (.session i) = false) := by
  have hfinish : Triple (Building (List.range config.sessions.length))
      (do
        Step.modify fun s => { s with providerCount := 1 }
        return true)
      (Leaves Undoable NullQueued True False fun s =>
        Phase (provided (List.range config.sessions.length)) s ∧
          ∀ i, s.pointers (.session i) = false) :=
    fun s hs => ⟨trivial, id, hs.provided, hs.null⟩
  have hsessions := Leaves.afterPass (unwinding_sessions_spec env config.sessions.length) hfinish
  have hretain := Triple.seq (Triple.modify fun s (hs : Phase logged s) => hs.building) hsessions
  exact Leaves.congr (Leaves.andThen (ask_spec env fun _ hs => hs.undoable) hretain) (by simp)
    (by simp) fun _ h => h

/-! ## The sessions -/

/-- In the first loop of `provider_t::Init`. -/
structure Acquiring (env : Environment) (ids done : List Nat) (s : Objects) : Prop
    extends Phase (provided ids) s where
  acquired : ∀ i, s.pointers (.session i) = true ↔
    i ∈ done ∧ env.answer (.acquireSession i) = .given
  unprovided : ∀ i, s.pointers (.ommProvider i) = false

variable {ids done : List Nat} {i : Nat}

theorem Acquiring.given (hs : Acquiring env ids done s) (hi : i ∈ ids) (hfresh : i ∉ done)
    (hc : env.answer (.acquireSession i) = .given) :
    Acquiring env ids (done ++ [i]) (s.acquired (.session i)) where
  toPhase := by
    have hfree : s.pointers (.session i) = false := by
      by_contra hno
      exact hfresh ((hs.acquired i).mp (by simpa using hno)).1
    refine hs.toPhase.acquired hfree (fun q hq => ?_) hi (by simp)
    cases hq
    exact hs.context
  acquired := by
    intro j
    rw [acquired_pointers]
    split
    · rename_i hj
      cases hj
      simp [hc]
    · rename_i hj
      have hne : j ≠ i := fun hji => hj (hji ▸ rfl)
      rw [hs.acquired j]
      simp [hne]
  unprovided := by
    intro j
    rw [acquired_pointers, if_neg (by simp)]
    exact hs.unprovided j

theorem Acquiring.refused (hs : Acquiring env ids done s)
    (hc : env.answer (.acquireSession i) = .refused) : Acquiring env ids (done ++ [i]) s where
  toPhase := hs.toPhase
  acquired := by
    intro j
    rw [hs.acquired j, List.mem_append, List.mem_singleton]
    constructor
    · exact fun h => ⟨Or.inl h.1, h.2⟩
    · rintro ⟨hj | rfl, hgiven⟩
      · exact ⟨hj, hgiven⟩
      · rw [hc] at hgiven
        cases hgiven
  unprovided := hs.unprovided

theorem sessionInit_spec (hi : i ∈ ids) (hfresh : i ∉ done) :
    Triple (Acquiring env ids done) (ignore (env.sessionInit i))
      (Passes Undoable (env.answer (.acquireSession i) ≠ .thrown)
        (Acquiring env ids (done ++ [i]))) := by
  intro s hs
  unfold ignore Environment.sessionInit
  cases hc : env.answer (.acquireSession i) with
  | given =>
    rw [Step.bind_ok (obtain_given hc)]
    exact ⟨by simp, hs.given hi hfresh hc⟩
  | refused =>
    rw [Step.bind_ok (obtain_refused hc)]
    exact ⟨by simp, hs.refused hc⟩
  | thrown =>
    rw [Step.bind_error (obtain_thrown hc)]
    exact ⟨by simp, hs.undoable⟩

/-- `session_t::SendLoginRequest` throws. -/
def Environment.LoginThrows (env : Environment) (i : Nat) : Prop :=
  env.answer (.loginRequest i) = .thrown ∨ env.answer (.registerLoginClient i) = .thrown ∨
    env.answer (.registerLoginClient i) = .given ∧ env.answer (.metaInfo i) = .thrown

/-- A session throws once it has its provider. -/
def Environment.ClientsThrow (env : Environment) (i : Nat) : Prop :=
  env.answer (.registerErrorClient i) = .thrown ∨
    env.answer (.registerErrorClient i) = .given ∧ env.LoginThrows i

/-- `session_t::CreateOMMProvider` throws. -/
def Environment.SessionThrows (env : Environment) (i : Nat) : Prop :=
  env.answer (.createOMMProvider i) = .thrown ∨
    env.answer (.createOMMProvider i) = .given ∧ env.ClientsThrow i

/-- A part whose result is not looked at. -/
def Tries (throws : Prop) (M : Objects → Prop) : Except Stop Bool → Objects → Prop
  | .ok _, s => ¬ throws ∧ M s
  | .error .thrown, s => throws ∧ Undoable s
  | .error _, _ => False

theorem Tries.congr {A B : Prop} {M : Objects → Prop} {out : Except Stop Bool}
    (h : Tries B M out s) (hA : A ↔ B) : Tries A M out s := by
  rw [propext hA]
  exact h

section Tries

variable {P M N : Objects → Prop} {B : Prop}

/-- `if (!x) return false; y`, for a call `x` that acquires a resource. -/
theorem Tries.andThen {c : RfaCall} {y : Stage Bool} (hP : ∀ s, P s → Undoable s)
    (hN : ∀ s, P s → N s) (hM : ∀ s, P s → M (s.acquired r)) (hy : Triple M y (Tries B N)) :
    Triple P (env.obtain c r >>= fun b => if (!b) = true then pure false else y)
      (Tries (env.answer c = .thrown ∨ env.answer c = .given ∧ B) N) := by
  intro s hs
  cases hc : env.answer c with
  | given =>
    rw [Step.bind_ok (obtain_given hc)]
    exact Tries.congr (hy _ (hM s hs)) (by simp)
  | refused =>
    rw [Step.bind_ok (obtain_refused hc)]
    exact ⟨by simp, hN s hs⟩
  | thrown =>
    rw [Step.bind_error (obtain_thrown hc)]
    exact ⟨Or.inl rfl, hP s hs⟩

theorem Tries.after {c : RfaCall} {y : Stage Bool} (hP : ∀ s, P s → Undoable s)
    (hy : Triple P y (Tries B N)) :
    Triple P (env.carryOut c >>= fun _ => y) (Tries (env.answer c = .thrown ∨ B) N) := by
  intro s hs
  by_cases hc : env.answer c = .thrown
  · rw [Step.bind_error (carryOut_thrown hc)]
    exact ⟨Or.inl hc, hP s hs⟩
  · rw [Step.bind_ok (carryOut_passed hc)]
    exact Tries.congr (hy s hs) (by simp [hc])

end Tries

/-- In the second loop of `provider_t::Init`. -/
structure Providing (env : Environment) (ids done : List Nat) (s : Objects) : Prop
    extends Phase (provided ids) s where
  acquired : ∀ i, s.pointers (.session i) = true ↔
    i ∈ ids ∧ env.answer (.acquireSession i) = .given
  unprovided : ∀ i, i ∉ done → s.pointers (.ommProvider i) = false

/-- What a session acquires does not change what the others have. -/
theorem Providing.acquire (hs : Providing env ids (done ++ [i]) s) (hfree : s.pointers r = false)
    (hneeds : ∀ q, Needs r q → s.pointers q = true) (hplace : (provided ids).place r)
    (hr : r = .ommProvider i ∨ r = .errorClient i ∨ r = .loginClient i) :
    Providing env ids (done ++ [i]) (s.acquired r) where
  toPhase := by
    apply hs.toPhase.acquired hfree hneeds hplace
    rcases hr with rfl | rfl | rfl <;> simp
  acquired := by
    intro j
    have hj : RfaResource.session j ≠ r := by rcases hr with rfl | rfl | rfl <;> simp
    rw [acquired_pointers, if_neg hj]
    exact hs.acquired j
  unprovided := by
    intro j hj
    have hne : RfaResource.ommProvider j ≠ r := by
      rcases hr with rfl | rfl | rfl
      · simp only [List.mem_append, List.mem_singleton, not_or] at hj
        simpa using hj.2
      · simp
      · simp
    rw [acquired_pointers, if_neg hne]
    exact hs.unprovided j hj

theorem sendLoginRequest_spec :
    Triple (fun s => Providing env ids (done ++ [i]) s ∧ s.pointers (.ommProvider i) = true ∧
        s.pointers (.loginClient i) = false) (env.sendLoginRequest i)
      (Tries (env.LoginThrows i) (Providing env ids (done ++ [i]))) := by
  have hinfo : Triple (Providing env ids (done ++ [i]))
      (do
        env.carryOut (.metaInfo i)
        return true)
      (Tries (env.answer (.metaInfo i) = .thrown ∨ False) (Providing env ids (done ++ [i]))) :=
    Tries.after (fun s hs => hs.undoable) fun s hs => ⟨id, hs⟩
  have hclient : Triple (fun s => Providing env ids (done ++ [i]) s ∧
        s.pointers (.ommProvider i) = true ∧ s.pointers (.loginClient i) = false)
      (do
        if !(← env.obtain (.registerLoginClient i) (.loginClient i)) then return false
        env.carryOut (.metaInfo i)
        return true)
      (Tries (env.answer (.registerLoginClient i) = .thrown ∨
          env.answer (.registerLoginClient i) = .given ∧
            (env.answer (.metaInfo i) = .thrown ∨ False))
        (Providing env ids (done ++ [i]))) := by
    refine Tries.andThen (fun s hs => hs.1.undoable) (fun s hs => hs.1) (fun s hs => ?_) hinfo
    refine hs.1.acquire hs.2.2 (fun q hq => ?_) trivial (by simp)
    cases hq with
    | context => exact hs.1.context
    | loginClient => exact hs.2.1
    | loginEvents => exact hs.1.live
  refine (Tries.after (fun s hs => hs.1.undoable) hclient).mono (fun _ h => h) fun out s h => ?_
  exact Tries.congr h (by simp [Environment.LoginThrows])

/-- A session that was acquired throws or goes on; what it has is then in its pointers. -/
theorem createOMMProvider_spec (hi : i ∈ ids) (hgiven : env.answer (.acquireSession i) = .given)
    (hfresh : i ∉ done) :
    Triple (Providing env ids done) (env.createOMMProvider i)
      (Tries (env.SessionThrows i) (Providing env ids (done ++ [i]))) := by
  have hclients : Triple (fun s => Providing env ids (done ++ [i]) s ∧
        s.pointers (.ommProvider i) = true ∧ s.pointers (.errorClient i) = false ∧
        s.pointers (.loginClient i) = false)
      (do
        if !(← env.obtain (.registerErrorClient i) (.errorClient i)) then return false
        env.sendLoginRequest i)
      (Tries (env.ClientsThrow i) (Providing env ids (done ++ [i]))) := by
    refine Tries.andThen (fun s hs => hs.1.undoable) (fun s hs => hs.1) (fun s hs => ?_)
      sendLoginRequest_spec
    obtain ⟨hs, hprovider, herror, hlogin⟩ := hs
    refine ⟨hs.acquire herror (fun q hq => ?_) trivial (by simp), ?_, ?_⟩
    · cases hq with
      | context => exact hs.context
      | errorClient => exact hprovider
      | errorEvents => exact hs.live
    · rw [acquired_pointers, if_neg (by simp)]
      exact hprovider
    · rw [acquired_pointers, if_neg (by simp)]
      exact hlogin
  have hprovider : Triple (fun s => Providing env ids (done ++ [i]) s ∧
        s.pointers (.session i) = true ∧ s.pointers (.ommProvider i) = false)
      (do
        if !(← env.obtain (.createOMMProvider i) (.ommProvider i)) then return false
        if !(← env.obtain (.registerErrorClient i) (.errorClient i)) then return false
        env.sendLoginRequest i)
      (Tries (env.SessionThrows i) (Providing env ids (done ++ [i]))) := by
    refine Tries.andThen (fun s hs => hs.1.undoable) (fun s hs => hs.1) (fun s hs => ?_) hclients
    obtain ⟨hs, hsession, hnull⟩ := hs
    refine ⟨hs.acquire hnull (fun q hq => ?_) trivial (by simp), by simp, ?_, ?_⟩
    · cases hq with
      | context => exact hs.context
      | ommProvider => exact hsession
    · rw [acquired_pointers, if_neg (by simp)]
      exact hs.unneeded hnull (.errorClient i)
    · rw [acquired_pointers, if_neg (by simp)]
      exact hs.unneeded hnull (.loginClient i)
  intro s hs
  have hsession : s.pointers (.session i) = true := (hs.acquired i).mpr ⟨hi, hgiven⟩
  unfold Environment.createOMMProvider
  rw [Step.bind_ok (deref_live hsession)]
  refine hprovider s ⟨⟨hs.toPhase, hs.acquired, fun j hj => ?_⟩, hsession, ?_⟩
  · exact hs.unprovided j fun hdone => hj (List.mem_append_left _ hdone)
  · exact hs.unprovided i hfresh

theorem createOMMProvider_null (hs : Providing env ids done s)
    (hrefused : env.answer (.acquireSession i) = .refused) :
    (env.createOMMProvider i s).1 = .error .crashed := by
  have hnull : s.pointers (.session i) = false := by
    by_contra hno
    have hgiven := ((hs.acquired i).mp (by simpa using hno)).2
    rw [hrefused] at hgiven
    cases hgiven
  unfold Environment.createOMMProvider
  rw [Step.bind_error (deref_null hnull)]

/-- The loop of `provider_t::Init` comes to a session that was not acquired. -/
def Environment.MeetsNull (env : Environment) (n : Nat) : Prop :=
  ∃ i < n, env.answer (.acquireSession i) = .refused ∧ ∀ j < i, ¬ env.SessionThrows j

/-- All sessions were acquired, and none throws. -/
def Environment.Provides (env : Environment) (n : Nat) : Prop :=
  ∀ i < n, env.answer (.acquireSession i) = .given ∧ ¬ env.SessionThrows i

theorem Environment.Provides.meets_none {n : Nat} (h : env.Provides n) : ¬ env.MeetsNull n := by
  rintro ⟨i, hi, hrefused, _⟩
  have hgiven := (h i hi).1
  rw [hrefused] at hgiven
  cases hgiven

/-- How the second loop of `provider_t::Init` ends. -/
def LoopEnds (env : Environment) (n : Nat) : Except Stop Unit → Objects → Prop
  | .ok (), s => env.Provides n ∧ Phase (provided (List.range n)) s
  | .error .thrown, s => ¬ env.Provides n ∧ ¬ env.MeetsNull n ∧ Undoable s
  | .error .crashed, _ => env.MeetsNull n
  | .error .asserted, _ => False

theorem createOMMProviders_spec {n : Nat}
    (hanswered : ∀ i ∈ List.range n, env.answer (.acquireSession i) ≠ .thrown) :
    Triple (Providing env (List.range n) [])
      (forEach (fun i => ignore (env.createOMMProvider i)) (List.range n)) (LoopEnds env n) := by
  refine (Triple.forEach (fun done s =>
    (∀ i ∈ done, env.answer (.acquireSession i) = .given ∧ ¬ env.SessionThrows i) ∧
      Providing env (List.range n) done s)
    (fun pre i post hl => ?_) fun s h =>
      ⟨fun i hi => h.1 i (List.mem_range.mpr hi), h.2.toPhase⟩).mono
    (fun s hs => ⟨by simp, hs⟩) fun _ _ h => h
  obtain ⟨rfl, hi⟩ := range_split hl
  rintro s ⟨hdone, hs⟩
  cases hc : env.answer (.acquireSession i) with
  | given =>
    have hfresh : i ∉ List.range i := List.not_mem_range_self
    have hstep := createOMMProvider_spec (List.mem_range.mpr hi) hc hfresh s hs
    unfold ignore
    cases hrun : env.createOMMProvider i s with
    | mk out t =>
      rw [hrun] at hstep
      cases out with
      | ok b =>
        rw [Step.bind_ok hrun]
        refine ⟨fun j hj => ?_, hstep.2⟩
        rcases List.mem_append.mp hj with hj | hj
        · exact hdone j hj
        · rw [List.mem_singleton.mp hj]
          exact ⟨hc, hstep.1⟩
      | error e =>
        rw [Step.bind_error hrun]
        cases e with
        | thrown =>
          refine ⟨fun hall => (hall i hi).2 hstep.1, ?_, hstep.2⟩
          rintro ⟨k, hk, hrefused, hbefore⟩
          rcases Nat.lt_trichotomy k i with hki | rfl | hki
          · have hgiven := (hdone k (List.mem_range.mpr hki)).1
            rw [hrefused] at hgiven
            cases hgiven
          · rw [hrefused] at hc
            cases hc
          · exact hbefore i hki hstep.1
        | crashed => exact hstep.elim
        | asserted => exact hstep.elim
  | refused =>
    have hcrash := createOMMProvider_null hs hc
    unfold ignore
    cases hrun : env.createOMMProvider i s with
    | mk out t =>
      rw [hrun] at hcrash
      cases hcrash
      rw [Step.bind_error hrun]
      exact ⟨i, hi, hc, fun j hj => (hdone j (List.mem_range.mpr hj)).2⟩
  | thrown => exact absurd hc (hanswered i (List.mem_range.mpr hi))

theorem sessionInits_spec {n : Nat} :
    Triple (Acquiring env (List.range n) [])
      (forEach (fun i => ignore (env.sessionInit i)) (List.range n))
      (Passes Undoable (∀ i ∈ List.range n, env.answer (.acquireSession i) ≠ .thrown)
        (Acquiring env (List.range n) (List.range n))) := by
  refine Passes.forEach (Acquiring env (List.range n)) fun pre i post hl => ?_
  obtain ⟨rfl, hi⟩ := range_split hl
  exact sessionInit_spec (List.mem_range.mpr hi) List.not_mem_range_self

theorem providerInit_spec (env : Environment) {n : Nat} :
    Triple (fun s => Phase (provided (List.range n)) s ∧ ∀ i, s.pointers (.session i) = false)
      env.providerInit
      (Leaves Undoable NullQueued
        ((∀ i ∈ List.range n, env.answer (.acquireSession i) ≠ .thrown) ∧
          env.answer .verifyVersion = .given ∧ env.Provides n)
        ((∀ i ∈ List.range n, env.answer (.acquireSession i) ≠ .thrown) ∧
          env.answer .verifyVersion = .given ∧ env.MeetsNull n)
        (Phase (provided (List.range n)))) := by
  have hloop : Triple (fun s => (∀ i ∈ List.range n, env.answer (.acquireSession i) ≠ .thrown) ∧
        Acquiring env (List.range n) (List.range n) s)
      (do
        forEach (fun i => ignore (env.createOMMProvider i)) (List.range n)
        return true)
      (Leaves Undoable NullQueued (env.Provides n) (env.MeetsNull n)
        (Phase (provided (List.range n)))) := by
    rintro s ⟨hanswered, hs⟩
    refine (Triple.bind (fun _ t => env.Provides n ∧ Phase (provided (List.range n)) t)
      ((createOMMProviders_spec hanswered).mono (fun _ h => h) fun out t h => ?_)
      fun _ t h => ⟨h.1, h.1.meets_none, h.2⟩) s
      ⟨hs.toPhase, hs.acquired, fun i _ => hs.unprovided i⟩
    cases out with
    | ok u => exact h
    | error e =>
      cases e with
      | thrown => exact ⟨h.1, Or.inl h.2⟩
      | crashed => exact h
      | asserted => exact h
  have hversion := Leaves.andThen
    (ask_spec env (c := .verifyVersion) fun _ hs => hs.2.undoable) hloop
  have hsessions := Leaves.afterPass (Passes.keeping sessionInits_spec) hversion
  refine Triple.gets_bind fun sessions => ?_
  rintro s ⟨⟨hs, hnull⟩, rfl⟩
  have hids : s.sessions = List.range n := hs.sessions
  rw [hids]
  refine (Leaves.congr hsessions Iff.rfl (by simp) fun _ h => h) s ⟨hs, by simp [hnull], ?_⟩
  exact fun i => hs.unneeded (hnull i) (.ommProvider i)

end Psych.Startup
