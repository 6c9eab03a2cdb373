import Psych.Lifecycle.Startup

/-!
# What the destructors release

`At o s` says of the state `s` that the pointers are those of the resources that are held, that
each is in an object that exists, and that the use counts are the numbers of the owners `o`.

* `destroySession_spec`, `destroyProvider_spec`, `destroyLog_spec`: a destructor leaves no pointer
  of its object, and the counts of the owners that remain.
* `clear_spec`: `Clear` leaves nothing.
-/

namespace Psych.Startup

open Faults Lifetimes

variable {s : Objects} {r : RfaResource}

/-! ## Acquisitions and releases -/

/-- The pointers are those of the resources that are held. -/
structure Ledger (s : Objects) : Prop where
  tidy : Tidy Needs s.acts
  held : ∀ r, Held s.acts r ↔ s.pointers r = true

@[simp]
theorem acquired_pointers (s : Objects) (r q : RfaResource) :
    (s.acquired r).pointers q = if q = r then true else s.pointers q := rfl

@[simp]
theorem released_pointers (s : Objects) (r q : RfaResource) :
    (s.released r).pointers q = if q = r then false else s.pointers q := rfl

theorem Ledger.acquired (h : Ledger s) (hfree : s.pointers r = false)
    (hneeds : ∀ q, Needs r q → s.pointers q = true) : Ledger (s.acquired r) where
  tidy := by
    refine h.tidy.acquire ?_ fun q hq => (h.held q).mpr (hneeds q hq)
    rw [h.held, hfree]
    simp
  held := by
    intro q
    have hq := h.held q
    by_cases hqr : q = r
    · subst hqr
      exact iff_of_true (Or.inl rfl) (if_pos rfl)
    · rw [acquired_pointers, if_neg hqr, ← hq]
      exact or_iff_right (Ne.symm hqr)

theorem Ledger.released (h : Ledger s) (hheld : s.pointers r = true)
    (hneeded : ∀ q, Needs q r → s.pointers q = false) : Ledger (s.released r) where
  tidy := by
    refine h.tidy.release ((h.held r).mpr hheld) fun q hq => ?_
    rw [h.held, hneeded q hq]
    simp
  held := by
    intro q
    have hq := h.held q
    by_cases hqr : q = r
    · subst hqr
      rw [released_pointers, if_pos rfl]
      exact iff_of_false (fun hq => hq.1 rfl) Bool.false_ne_true
    · rw [released_pointers, if_neg hqr, ← hq]
      exact and_iff_right (Ne.symm hqr)

/-- A pointer that is not null has what its resource needs. -/
theorem Ledger.needed (h : Ledger s) {q : RfaResource} (hr : s.pointers r = true)
    (hneeds : Needs r q) : s.pointers q = true :=
  (h.held q).mp (h.tidy.held_of_needs ((h.held r).mpr hr) hneeds)

theorem Ledger.unneeded (h : Ledger s) {q : RfaResource} (hq : s.pointers q = false)
    (hneeds : Needs r q) : s.pointers r = false := by
  cases hr : s.pointers r with
  | false => rfl
  | true =>
    rw [h.needed hr hneeds] at hq
    cases hq

/-! ## Owners -/

/-- The owners of the shared objects, next to `rfa_` of the instance. -/
structure Owners where
  /-- `event_queue_` of the instance. -/
  eventQueue : Bool := false
  logs : Nat := 0
  providers : Nat := 0
  sessions : List Nat := []
  eventPump : Bool := false
  /-- Log event providers in their destructor. -/
  closing : Nat := 0
  /-- Providers in their constructor or destructor. -/
  building : Nat := 0
  /-- Console handlers that hold the event queue. -/
  handlers : Nat := 0

/-- There is an object that has a pointer to the resource; the staging databases do not outlive
`rfa_t::Init`. -/
def Owners.place (o : Owners) : RfaResource → Prop
  | .eventQueue => o.eventQueue = true
  | .logger => 0 < o.logs + o.closing
  | .session i => i ∈ o.sessions
  | .staging | .registryStaging => False
  | _ => True

structure At (o : Owners) (s : Objects) : Prop extends Ledger s where
  placed : ∀ r, s.pointers r = true → o.place r
  context : s.pointers .context = true
  rfa : s.rfa = true
  eventQueue : s.eventQueue = o.eventQueue
  logCount : s.logCount = o.logs
  providerCount : s.providerCount = o.providers
  sessions : s.sessions = o.sessions
  eventPump : s.eventPump = o.eventPump
  rfaCount : s.rfaCount = 1 + o.providers + o.building + o.sessions.length
  queueCount : s.queueCount = o.eventQueue.toNat + o.logs + o.closing + o.sessions.length +
    o.eventPump.toNat + o.handlers

variable {o : Owners}

theorem At.acquired (h : At o s) (hfree : s.pointers r = false)
    (hneeds : ∀ q, Needs r q → s.pointers q = true) (hplace : o.place r) :
    At o (s.acquired r) := by
  refine { h with
    toLedger := h.toLedger.acquired hfree hneeds
    placed := fun q hq => ?_
    context := by simp [h.context] }
  by_cases hqr : q = r
  · exact hqr ▸ hplace
  · rw [acquired_pointers, if_neg hqr] at hq
    exact h.placed q hq

theorem At.released (h : At o s) (hheld : s.pointers r = true) (hcontext : r ≠ .context)
    (hneeded : ∀ q, Needs q r → s.pointers q = false) : At o (s.released r) := by
  refine { h with
    toLedger := h.toLedger.released hheld hneeded
    placed := fun q hq => ?_
    context := by rw [released_pointers, if_neg (Ne.symm hcontext), h.context] }
  by_cases hqr : q = r
  · rw [released_pointers, if_pos hqr] at hq
    cases hq
  · rw [released_pointers, if_neg hqr] at hq
    exact h.placed q hq

/-! ## Destructors -/

/-- In a destructor: some pointers are null, and the one to the event queue is as it was. -/
structure Closing (o : Owners) (live : Bool) (gone : List RfaResource) (s : Objects) : Prop
    extends At o s where
  live : s.pointers .eventQueue = live
  gone : ∀ q ∈ gone, s.pointers q = false

variable {live : Bool} {gone : List RfaResource}

theorem Closing.mono {fewer : List RfaResource} (h : Closing o live gone s)
    (hsub : ∀ q ∈ fewer, q ∈ gone) : Closing o live fewer s :=
  ⟨h.toAt, h.live, fun q hq => h.gone q (hsub q hq)⟩

theorem Closing.cons (h : Closing o live gone s) (hr : s.pointers r = false) :
    Closing o live (r :: gone) s :=
  ⟨h.toAt, h.live, List.forall_mem_cons.mpr ⟨hr, h.gone⟩⟩

theorem Closing.released (h : Closing o live gone s) (hheld : s.pointers r = true)
    (hcontext : r ≠ .context) (hqueue : r ≠ .eventQueue) (hneeded : ∀ q, Needs q r → q ∈ gone) :
    Closing o live (r :: gone) (s.released r) where
  toAt := h.toAt.released hheld hcontext fun q hq => h.gone q (hneeded q hq)
  live := by rw [released_pointers, if_neg (Ne.symm hqueue), h.live]
  gone := by
    intro q hq
    rw [released_pointers]
    split
    · rfl
    · rename_i hqr
      exact h.gone q ((List.mem_cons.mp hq).resolve_left hqr)

/-- `reset` of a pointer whose resource nothing else needs any more. -/
theorem reset_spec (hcontext : r ≠ .context) (hqueue : r ≠ .eventQueue)
    (hneeded : ∀ q, Needs q r → q ∈ gone) :
    Triple (Closing o live gone) (reset r)
      (endsIn (fun _ => Closing o live (r :: gone)) fun _ _ => False) := by
  refine Triple.gets_bind fun b => ?_
  cases b with
  | true => exact fun s hs => hs.1.released hs.2 hcontext hqueue hneeded
  | false => exact fun s hs => hs.1.cons hs.2

/-- A pointer that is not null is not called through where nothing calls through it. -/
theorem deref_spec {P : Objects → Prop} (h : ∀ s, P s → s.pointers r = true) :
    Triple P (deref r) (endsIn (fun _ => P) fun _ _ => False) := by
  refine Triple.gets_bind fun b => ?_
  cases b with
  | true => exact fun s hs => hs.1
  | false =>
    intro s hs
    have htrue := h s hs.1
    rw [hs.2] at htrue
    cases htrue

theorem release_spec {P M : Objects → Prop} (h : ∀ s, P s → M (s.released r)) :
    Triple P (release r) (endsIn (fun _ => M) fun _ _ => False) :=
  Triple.modify h

theorem unregisterClient_spec {source client : RfaResource} (hneeds : Needs client source)
    (hcontext : client ≠ .context) (hqueue : client ≠ .eventQueue)
    (hneeded : ∀ q, ¬ Needs q client) :
    Triple (Closing o live gone) (unregisterClient source client)
      (endsIn (fun _ => Closing o live (client :: gone)) fun _ _ => False) := by
  refine Triple.gets_bind fun b => ?_
  cases b with
  | true =>
    refine Triple.seq (deref_spec fun s hs => hs.1.needed hs.2 hneeds) ?_
    refine release_spec fun s hs => ?_
    exact hs.1.released hs.2 hcontext hqueue fun q hq => absurd hq (hneeded q)
  | false => exact fun s hs => hs.1.cons hs.2

/-- An owner of the event queue goes that is not the last. -/
theorem dropQueue_eq (h : s.queueCount ≠ 1) :
    dropQueue s = (.ok (), { s with queueCount := s.queueCount - 1 }) := by
  change (if s.queueCount = 1 then destroyQueue else pure ())
    { s with queueCount := s.queueCount - 1 } = _
  rw [if_neg h]
  rfl

theorem dropRfa_eq (h : s.rfaCount ≠ 1) :
    dropRfa s = (.ok (), { s with rfaCount := s.rfaCount - 1 }) := by
  change (if s.rfaCount = 1 then destroyRfa else pure ())
    { s with rfaCount := s.rfaCount - 1 } = _
  rw [if_neg h]
  rfl

/-- An element of `sessions_` releases its clients, its provider and its session. -/
theorem destroySession_spec {i : Nat} {rest : List Nat} (hqueue : o.eventQueue = true) :
    Triple (Closing { o with sessions := i :: rest } live []) (destroySession i)
      (endsIn (fun _ => Closing { o with sessions := rest } live []) fun _ _ => False) := by
  refine Triple.seq (unregisterClient_spec (.loginClient i) (by simp) (by simp) (by rintro q ⟨⟩)) ?_
  refine Triple.seq (unregisterClient_spec (.errorClient i) (by simp) (by simp) (by rintro q ⟨⟩)) ?_
  refine Triple.seq (reset_spec (by simp) (by simp) fun q hq => ?_) ?_
  · cases hq <;> simp
  refine Triple.seq (reset_spec (by simp) (by simp) fun q hq => ?_) ?_
  · cases hq
    simp
  intro s hs
  have hsession : s.pointers (.session i) = false := hs.gone _ (by simp)
  have hqueueCount := hs.queueCount
  have hrfaCount := hs.rfaCount
  have hsessions : s.sessions = i :: rest := hs.sessions
  simp only [hqueue, Bool.toNat_true, List.length_cons] at hqueueCount hrfaCount
  have hdrop : (dropQueue >>= fun _ => dropRfa) { s with sessions := s.sessions.tail } =
      (.ok (), { s with
        sessions := s.sessions.tail
        queueCount := s.queueCount - 1
        rfaCount := s.rfaCount - 1 }) := by
    rw [Step.bind_ok (dropQueue_eq (by simp only; omega)), dropRfa_eq (by simp only; omega)]
  change endsIn _ _ ((dropQueue >>= fun _ => dropRfa) { s with sessions := s.sessions.tail }).1
    ((dropQueue >>= fun _ => dropRfa) { s with sessions := s.sessions.tail }).2
  rw [hdrop]
  refine ⟨{ hs.toAt with
    placed := fun q hq => ?_
    sessions := by rw [hsessions]; rfl
    rfaCount := by simp only; omega
    queueCount := by simp only [hqueue, Bool.toNat_true]; omega }, hs.live, by simp⟩
  have hplaced := hs.placed q hq
  cases q with
  | session j =>
    rcases List.mem_cons.mp hplaced with rfl | hj
    · rw [hsession] at hq
      cases hq
    · exact hj
  | _ => exact hplaced

/-- A provider in its destructor. -/
theorem destroyProvider_spec (hqueue : o.eventQueue = true) :
    Triple (Closing { o with building := o.building + 1 } live []) destroyProvider
      (endsIn (fun _ => Closing { o with sessions := [] } live []) fun _ _ => False) := by
  refine Triple.gets_bind fun sessions => ?_
  refine Triple.seq
    (M := Closing { o with building := o.building + 1, sessions := [] } live []) ?_ ?_
  · intro s hs
    obtain ⟨hs, rfl⟩ := hs
    -- what is left of `sessions_` is what the loop goes on to
    let I := fun (done : List Nat) (t : Objects) => ∃ rest, s.sessions = done ++ rest ∧
      Closing { o with building := o.building + 1, sessions := rest } live [] t
    refine Triple.forEach I ?_ ?_ s ⟨s.sessions, rfl, ?_⟩
    · rintro pre i post hsplit t ⟨rest, hrest, ht⟩
      obtain rfl : rest = i :: post := List.append_cancel_left (hrest.symm.trans hsplit)
      refine ((destroySession_spec (o := { o with building := o.building + 1 }) hqueue).mono
        (fun _ h => h) fun out u h => ?_) t ht
      cases out with
      | ok _ => exact ⟨post, by rw [hsplit, List.append_assoc]; rfl, h⟩
      | error e => exact h.elim
    · rintro t ⟨rest, hrest, ht⟩
      have hnil : rest = [] := List.self_eq_append_right.mp hrest
      exact hnil ▸ ht
    · rw [hs.sessions]
      exact hs
  · intro s hs
    have hcount := hs.rfaCount
    simp only [List.length_nil] at hcount
    rw [dropRfa_eq (by omega)]
    exact ⟨{ hs.toAt with rfaCount := by simp only [List.length_nil]; omega }, hs.live, hs.gone⟩

/-- A log event provider in its destructor. -/
theorem destroyLog_spec (hqueue : o.eventQueue = true) (hlogs : o.logs = 0)
    (hclosing : o.closing = 0) :
    Triple (Closing { o with closing := 1 } live []) destroyLog
      (endsIn (fun _ => Closing o live []) fun _ _ => False) := by
  refine Triple.seq (M := Closing { o with closing := 1 } live [.logger]) ?_ ?_
  · refine Triple.seq (unregisterClient_spec .loggerClient (by simp) (by simp) (by rintro q ⟨⟩)) ?_
    refine Triple.seq (reset_spec (by simp) (by simp) fun q hq => ?_) ?_
    · cases hq
      simp
    refine (reset_spec (by simp) (by simp) fun q hq => ?_).mono (fun _ h => h) fun out s h => ?_
    · cases hq
      simp
    · cases out with
      | ok u => exact h.mono (by simp)
      | error e => exact h
  · intro s hs
    have hcount := hs.queueCount
    simp only [hqueue, Bool.toNat_true] at hcount
    rw [dropQueue_eq (by omega)]
    refine ⟨{ hs.toAt with placed := fun q hq => ?_, queueCount := ?_ }, hs.live, by simp⟩
    · have hplaced := hs.placed q hq
      cases q with
      | logger =>
        have hlogger : s.pointers .logger = false := hs.gone _ (by simp)
        rw [hlogger] at hq
        cases hq
      | _ => exact hplaced
    · simp only [hqueue, Bool.toNat_true]
      omega

/-! ## `Clear` -/

/-- Between two calls: each owner holds the event queue next to the instance. -/
structure Owners.Stable (o : Owners) : Prop where
  closing : o.closing = 0
  building : o.building = 0
  logs : o.logs ≤ 1
  providers : o.providers ≤ 1
  orphans : o.providers = 0 → o.sessions = []
  queue : o.eventQueue = false → o.logs = 0 ∧ o.providers = 0 ∧ o.eventPump = false

theorem assert_spec {P : Objects → Prop} {p : Objects → Bool} (h : ∀ s, P s → p s = true) :
    Triple P (assert p) (endsIn (fun _ => P) fun _ _ => False) := by
  refine Triple.gets_bind fun b => ?_
  cases b with
  | true => exact fun s hs => hs.1
  | false =>
    intro s hs
    have htrue := h s hs.1
    rw [hs.2] at htrue
    cases htrue

/-- A pointer that is empty is not reset. -/
theorem skip_spec {P : Objects → Prop} {f : Objects → Bool} {x : Stage Unit}
    (h : ∀ s, P s → f s = false) :
    Triple P (Step.gets f >>= fun b => if b = true then x else pure ())
      (endsIn (fun _ => P) fun _ _ => False) := by
  refine Triple.gets_bind fun b => ?_
  rintro s ⟨hs, rfl⟩
  rw [h s hs]
  exact hs

theorem resetEventPump_spec (ho : o.Stable) :
    Triple (Closing o live []) resetEventPump
      (endsIn (fun _ => Closing { o with eventPump := false } live []) fun _ _ => False) := by
  refine Triple.gets_bind fun b => ?_
  cases b with
  | true =>
    rintro s ⟨hs, hpump⟩
    have hopump : o.eventPump = true := hs.eventPump.symm.trans hpump
    have hqueue : o.eventQueue = true := by
      by_contra hno
      have hnone := (ho.queue (by simpa using hno)).2.2
      rw [hopump] at hnone
      cases hnone
    have hcount := hs.queueCount
    simp only [hqueue, hopump, Bool.toNat_true] at hcount
    change endsIn _ _ (dropQueue { s with eventPump := false }).1
      (dropQueue { s with eventPump := false }).2
    rw [dropQueue_eq (by simp only; omega)]
    refine ⟨{ hs.toAt with eventPump := rfl, queueCount := ?_ }, hs.live, hs.gone⟩
    simp only [hqueue, Bool.toNat_true, Bool.toNat_false]
    omega
  | false =>
    rintro s ⟨hs, hpump⟩
    have hopump : o.eventPump = false := hs.eventPump.symm.trans hpump
    have hsame : { o with eventPump := false } = o := by rw [← hopump]
    rw [hsame]
    exact hs

theorem resetProvider_eq (s : Objects) : resetProvider s =
    if s.providerCount = 1 then destroyProvider { s with providerCount := 0 }
    else (.ok (), { s with providerCount := s.providerCount - 1 }) := by
  change (if s.providerCount = 1 then destroyProvider else pure ())
    { s with providerCount := s.providerCount - 1 } = _
  split
  · rename_i hone
    rw [hone]
  · rfl

theorem resetLog_eq (s : Objects) : resetLog s =
    if s.logCount = 1 then destroyLog { s with logCount := 0 }
    else (.ok (), { s with logCount := s.logCount - 1 }) := by
  change (if s.logCount = 1 then destroyLog else pure ())
    { s with logCount := s.logCount - 1 } = _
  split
  · rename_i hone
    rw [hone]
  · rfl

theorem resetProvider_spec (ho : o.Stable) :
    Triple (Closing o live []) resetProvider
      (endsIn (fun _ => Closing { o with providers := 0, sessions := [] } live [])
        fun _ _ => False) := by
  intro s hs
  have hproviders := hs.providerCount
  have hcount := hs.rfaCount
  have hbuilding := ho.building
  rw [resetProvider_eq]
  split
  · rename_i hone
    have hqueue : o.eventQueue = true := by
      by_contra hno
      have hnone := (ho.queue (by simpa using hno)).2.1
      omega
    refine destroyProvider_spec (o := { o with providers := 0 }) hqueue _ ?_
    exact ⟨{ hs.toAt with
      providerCount := rfl
      rfaCount := by simp only; omega }, hs.live, hs.gone⟩
  · rename_i hone
    have hzero : o.providers = 0 := by
      have hle := ho.providers
      omega
    have hsame : { o with providers := 0, sessions := [] } = o := by
      rw [← ho.orphans hzero, ← hzero]
    rw [hsame]
    exact ⟨{ hs.toAt with providerCount := by simp only; omega }, hs.live, hs.gone⟩

theorem resetLog_spec (ho : o.Stable) :
    Triple (Closing o live []) resetLog
      (endsIn (fun _ => Closing { o with logs := 0 } live []) fun _ _ => False) := by
  intro s hs
  have hlogs := hs.logCount
  have hcount := hs.queueCount
  have hclosing := ho.closing
  rw [resetLog_eq]
  split
  · rename_i hone
    have hqueue : o.eventQueue = true := by
      by_contra hno
      have hnone := (ho.queue (by simpa using hno)).1
      omega
    refine destroyLog_spec (o := { o with logs := 0 }) hqueue rfl hclosing _ ?_
    refine ⟨{ hs.toAt with
      placed := fun q hq => ?_
      logCount := rfl
      queueCount := by simp only; omega }, hs.live, hs.gone⟩
    have hplaced := hs.placed q hq
    cases q with
    | logger => exact Nat.one_pos
    | _ => exact hplaced
  · rename_i hone
    have hzero : o.logs = 0 := by
      have hle := ho.logs
      omega
    have hsame : { o with logs := 0 } = o := by rw [← hzero]
    rw [hsame]
    exact ⟨{ hs.toAt with logCount := by simp only; omega }, hs.live, hs.gone⟩

/-- The instance is left as the only owner in it. -/
def Owners.shared (o : Owners) : Owners := { eventQueue := o.eventQueue, handlers := o.handlers }

theorem clearUsers_spec (ho : o.Stable) :
    Triple (Closing o live []) clearUsers
      (endsIn (fun _ => Closing o.shared live []) fun _ _ => False) := by
  have hpump : ({ o with eventPump := false } : Owners).Stable :=
    { ho with queue := fun hq => ⟨(ho.queue hq).1, (ho.queue hq).2.1, rfl⟩ }
  have hprovider :
      ({ o with eventPump := false, providers := 0, sessions := [] } : Owners).Stable :=
    { ho with
      providers := Nat.zero_le 1
      orphans := fun _ => rfl
      queue := fun hq => ⟨(ho.queue hq).1, rfl, rfl⟩ }
  refine Triple.seq (resetEventPump_spec ho) ?_
  refine Triple.seq (assert_spec fun s hs => ?_) ?_
  · rw [hs.providerCount]
    exact decide_eq_true ho.providers
  refine Triple.seq (resetProvider_spec hpump) ?_
  refine Triple.seq (assert_spec fun s hs => ?_) ?_
  · rw [hs.logCount]
    exact decide_eq_true ho.logs
  have hshared : o.shared =
      { o with eventPump := false, providers := 0, sessions := [], logs := 0 } := by
    simp only [Owners.shared, ho.closing, ho.building]
  rw [hshared]
  exact resetLog_spec hprovider

/-- With no log and no session left, the other pointers are null. -/
theorem At.shared (h : At o.shared s) (hr : s.pointers r = true) :
    r = .context ∨ r = .configDatabase ∨ r = .eventQueue := by
  have hlogger : s.pointers .logger = false := by
    by_contra hno
    exact Nat.lt_irrefl 0 (h.placed .logger (by simpa using hno))
  have hmonitor := h.unneeded hlogger .monitor
  have hsession : ∀ i, s.pointers (.session i) = false := by
    intro i
    by_contra hno
    have hplaced := h.placed (.session i) (by simpa using hno)
    cases hplaced
  have hprovider : ∀ i, s.pointers (.ommProvider i) = false :=
    fun i => h.unneeded (hsession i) (.ommProvider i)
  have hnull : s.pointers r ≠ false := by simp [hr]
  cases r with
  | context => simp
  | configDatabase => simp
  | eventQueue => simp
  | staging => exact (h.placed _ hr).elim
  | registryStaging => exact (h.placed _ hr).elim
  | logger => exact absurd hlogger hnull
  | monitor => exact absurd hmonitor hnull
  | loggerClient => exact absurd (h.unneeded hmonitor .loggerClient) hnull
  | session i => exact absurd (hsession i) hnull
  | ommProvider i => exact absurd (hprovider i) hnull
  | errorClient i => exact absurd (h.unneeded (hprovider i) (.errorClient i)) hnull
  | loginClient i => exact absurd (h.unneeded (hprovider i) (.loginClient i)) hnull

/-- Nothing is left. -/
structure Cleared (s : Objects) : Prop extends Ledger s where
  null : ∀ r, s.pointers r = false
  rfa : s.rfa = false
  eventQueue : s.eventQueue = false
  logCount : s.logCount = 0
  providerCount : s.providerCount = 0
  eventPump : s.eventPump = false

theorem deref_live (h : s.pointers r = true) : deref r s = (.ok (), s) := by
  change (if s.pointers r = true then pure () else Step.fail .crashed : Stage Unit) s = _
  rw [if_pos h]
  rfl

theorem deref_null (h : s.pointers r = false) : deref r s = (.error .crashed, s) := by
  change (if s.pointers r = true then pure () else Step.fail .crashed : Stage Unit) s = _
  rw [if_neg (by simp [h])]
  rfl

/-- The deleter is called through a null pointer. -/
theorem destroyQueue_null (h : s.pointers .eventQueue = false) :
    destroyQueue s = (.error .crashed, s) := Step.bind_error (deref_null h)

theorem destroyQueue_live (h : s.pointers .eventQueue = true) :
    destroyQueue s = (.ok (), s.released .eventQueue) := Step.bind_ok (deref_live h)

theorem resetEventQueue_eq (hqueue : s.eventQueue = true) (hcount : s.queueCount = 1) :
    resetEventQueue s = destroyQueue { s with eventQueue := false, queueCount := 0 } := by
  change (if s.eventQueue = true then (do
      Step.modify fun s => { s with eventQueue := false }
      dropQueue) else pure () : Stage Unit) s = _
  rw [if_pos hqueue]
  change (if s.queueCount = 1 then destroyQueue else pure ())
    { s with eventQueue := false, queueCount := s.queueCount - 1 } = _
  rw [if_pos hcount, hcount]

theorem resetRfa_eq (hrfa : s.rfa = true) (hcount : s.rfaCount = 1) :
    resetRfa s = destroyRfa { s with rfa := false, rfaCount := 0 } := by
  change (if s.rfa = true then (do
      Step.modify fun s => { s with rfa := false }
      dropRfa) else pure () : Stage Unit) s = _
  rw [if_pos hrfa]
  change (if s.rfaCount = 1 then destroyRfa else pure ())
    { s with rfa := false, rfaCount := s.rfaCount - 1 } = _
  rw [if_pos hcount, hcount]

theorem resetEventQueue_spec :
    Triple (Closing { eventQueue := true } true []) resetEventQueue
      (endsIn (fun _ => Closing {} false []) fun _ _ => False) := by
  intro s hs
  let t : Objects := { s with eventQueue := false, queueCount := 0 }
  rw [resetEventQueue_eq hs.eventQueue hs.queueCount, destroyQueue_live (s := t) hs.live]
  have hothers : ∀ q, q ≠ .eventQueue → t.pointers q = true →
      q = .context ∨ q = .configDatabase := by
    intro q hq hr
    have hshared := At.shared (o := { eventQueue := true }) hs.toAt hr
    tauto
  have hledger : Ledger (t.released .eventQueue) := by
    refine Ledger.released ⟨hs.tidy, hs.held⟩ hs.live fun q hq => ?_
    by_contra hno
    have hq' := hothers q (by rintro rfl; cases hq) (by simpa using hno)
    rcases hq' with rfl | rfl <;> cases hq
  have hplaced : ∀ q, (t.released .eventQueue).pointers q = true → ({} : Owners).place q := by
    intro q hq
    rw [released_pointers] at hq
    split at hq
    · cases hq
    · rcases hothers q ‹_› hq with rfl | rfl <;> trivial
  have hcontext : (t.released .eventQueue).pointers .context = true := by
    rw [released_pointers, if_neg (by simp)]
    exact hs.context
  have hnull : (t.released .eventQueue).pointers .eventQueue = false := by
    rw [released_pointers, if_pos rfl]
  exact ⟨{ hs.toAt with
    toLedger := hledger
    placed := hplaced
    context := hcontext
    eventQueue := rfl
    queueCount := rfl }, hnull, by simp⟩

theorem destroyRfa_closed (h : s.pointers .configDatabase = false) :
    destroyRfa s = (.ok (), s.released .context) := by
  change ((if s.pointers .configDatabase = true then release .configDatabase else pure ()) >>=
    fun _ => release .context : Stage Unit) s = _
  rw [if_neg (by simp [h])]
  rfl

theorem destroyRfa_open (h : s.pointers .configDatabase = true) :
    destroyRfa s = (.ok (), (s.released .configDatabase).released .context) := by
  change ((if s.pointers .configDatabase = true then release .configDatabase else pure ()) >>=
    fun _ => release .context : Stage Unit) s = _
  rw [if_pos h]
  rfl

/-- The context is released last. -/
theorem Ledger.released_context (h : Ledger s) (hcontext : s.pointers .context = true)
    (hothers : ∀ q, q ≠ .context → s.pointers q = false) :
    Ledger (s.released .context) ∧ ∀ q, (s.released .context).pointers q = false := by
  refine ⟨h.released hcontext fun q hq => ?_, fun q => ?_⟩
  · cases hq with
    | context hne => exact hothers q hne
  · rw [released_pointers]
    split
    · rfl
    · exact hothers q ‹_›

theorem resetRfa_spec :
    Triple (Closing {} false []) resetRfa (endsIn (fun _ => Cleared) fun _ _ => False) := by
  intro s hs
  rw [resetRfa_eq hs.rfa hs.rfaCount]
  let t : Objects := { s with rfa := false, rfaCount := 0 }
  have hledger : Ledger t := ⟨hs.tidy, hs.held⟩
  have hothers : ∀ q, q ≠ .context → q ≠ .configDatabase → t.pointers q = false := by
    intro q hcontext hconfig
    by_contra hno
    rcases At.shared (o := {}) hs.toAt (r := q) (by simpa using hno) with rfl | rfl | rfl
    · exact hcontext rfl
    · exact hconfig rfl
    · exact hno hs.live
  cases hconfig : t.pointers .configDatabase with
  | true =>
    have hclosed : Ledger (t.released .configDatabase) :=
      hledger.released hconfig fun q hq => by cases hq
    have hcontext : (t.released .configDatabase).pointers .context = true := by
      rw [released_pointers, if_neg (by simp)]
      exact hs.context
    obtain ⟨hlast, hnull⟩ := hclosed.released_context hcontext fun q hq => by
      rw [released_pointers]
      split
      · rfl
      · exact hothers q hq ‹_›
    rw [destroyRfa_open hconfig]
    exact ⟨hlast, hnull, rfl, hs.eventQueue, hs.logCount, hs.providerCount, hs.eventPump⟩
  | false =>
    obtain ⟨hlast, hnull⟩ := hledger.released_context hs.context fun q hq => by
      by_cases hq' : q = .configDatabase
      · exact hq' ▸ hconfig
      · exact hothers q hq hq'
    rw [destroyRfa_closed hconfig]
    exact ⟨hlast, hnull, rfl, hs.eventQueue, hs.logCount, hs.providerCount, hs.eventPump⟩

/-- `Clear` leaves nothing, where nothing else holds the event queue and there is one. -/
theorem clear_spec (ho : o.Stable) (hhandlers : o.handlers = 0) (hlive : live = o.eventQueue) :
    Triple (Closing o live []) clear (endsIn (fun _ => Cleared) fun _ _ => False) := by
  refine Triple.seq (clearUsers_spec ho) ?_
  have hshared : o.shared = { eventQueue := o.eventQueue } := by
    rw [Owners.shared, hhandlers]
  rw [hshared, hlive]
  refine Triple.seq (assert_spec fun s hs => ?_) ?_
  · have hcount := hs.queueCount
    cases hqueue : o.eventQueue with
    | false => simp [hs.eventQueue, hqueue]
    | true =>
      rw [hqueue] at hcount
      simp [hcount]
  refine Triple.seq (M := Closing {} false []) ?_ ?_
  · cases o.eventQueue with
    | true => exact resetEventQueue_spec
    | false => exact skip_spec fun s hs => hs.eventQueue
  refine Triple.seq (assert_spec fun s hs => ?_) resetRfa_spec
  simp [hs.rfaCount]

theorem assert_fails {P : Objects → Prop} {p : Objects → Bool} (h : ∀ s, P s → p s = false) :
    Triple P (assert p) (endsIn (fun _ _ => False) fun e _ => e = .asserted) := by
  refine Triple.gets_bind fun b => ?_
  cases b with
  | true =>
    intro s hs
    have hfalse := h s hs.1
    rw [hs.2] at hfalse
    cases hfalse
  | false => exact fun s _ => rfl

/-- A handler that holds the event queue fails the assertion about it. -/
theorem clear_asserted (ho : o.Stable) (hhandlers : 0 < o.handlers) (hqueue : o.eventQueue = true) :
    Triple (Closing o live []) clear (endsIn (fun _ _ => False) fun e _ => e = .asserted) := by
  refine Triple.seq (clearUsers_spec ho) (Triple.stop (assert_fails fun s hs => ?_))
  have hflag : s.eventQueue = true := hs.eventQueue.trans hqueue
  have hcount := hs.queueCount
  simp only [Owners.shared, hqueue, Bool.toNat_true] at hcount
  simp only [hflag, Bool.not_true, Bool.false_or, decide_eq_false_iff_not]
  omega

/-- An event queue that was not created is destroyed. -/
theorem clear_crashed (ho : o.Stable) (hhandlers : o.handlers = 0) (hqueue : o.eventQueue = true) :
    Triple (Closing o false []) clear (endsIn (fun _ _ => False) fun e _ => e = .crashed) := by
  refine Triple.seq (clearUsers_spec ho) ?_
  have hshared : o.shared = { eventQueue := true } := by
    rw [Owners.shared, hhandlers, hqueue]
  rw [hshared]
  refine Triple.seq (assert_spec fun s hs => ?_) (Triple.stop ?_)
  · simp [hs.queueCount]
  · intro s hs
    rw [resetEventQueue_eq hs.eventQueue hs.queueCount,
      destroyQueue_null (s := { s with eventQueue := false, queueCount := 0 }) hs.live]
    rfl

/-- A second `Clear` finds nothing. -/
theorem clear_cleared : Triple Cleared clear (endsIn (fun _ => Cleared) fun _ _ => False) := by
  have hprovider : Triple Cleared resetProvider (endsIn (fun _ => Cleared) fun _ _ => False) := by
    intro s hs
    rw [resetProvider_eq, hs.providerCount]
    exact { hs with providerCount := rfl }
  have hlog : Triple Cleared resetLog (endsIn (fun _ => Cleared) fun _ _ => False) := by
    intro s hs
    rw [resetLog_eq, hs.logCount]
    exact { hs with logCount := rfl }
  have husers : Triple Cleared clearUsers (endsIn (fun _ => Cleared) fun _ _ => False) := by
    refine Triple.seq (skip_spec fun s hs => hs.eventPump) ?_
    refine Triple.seq (assert_spec fun s hs => by simp [hs.providerCount]) ?_
    refine Triple.seq hprovider ?_
    exact Triple.seq (assert_spec fun s hs => by simp [hs.logCount]) hlog
  refine Triple.seq husers ?_
  refine Triple.seq (assert_spec fun s hs => by simp [hs.eventQueue]) ?_
  refine Triple.seq (skip_spec fun s hs => hs.eventQueue) ?_
  exact Triple.seq (assert_spec fun s hs => by simp [hs.rfa]) (skip_spec fun s hs => hs.rfa)

end Psych.Startup
