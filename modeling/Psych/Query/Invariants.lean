import Psych.Query.Emissions

/-!
# Invariants of queries

Between the messages a query prepares connections, receives headers and data, and counts:
all that leaves the resources and file times of the connections and the provider as they
were (`Quiet`). An invariant is proved once for such steps and once for messages
(`QueryInvariant`) and holds after every query (`httpPsychQuery_invariant`).
-/

namespace Psych

/-- The state later on, with no response looked at in between. -/
structure Quiet (p p' : State) : Prop where
  resource : ∀ c, (p'.connections c).resource = (p.connections c).resource
  lastFiletime : ∀ c, (p'.connections c).lastFiletime = (p.connections c).lastFiletime
  provider : p'.provider = p.provider
  log : ∃ new, p'.log = new ++ p.log ∧ ∀ o ∈ new, ¬ o.ofResponse

theorem Quiet.of_same {p p' : State} (hconnections : p'.connections = p.connections)
    (hprovider : p'.provider = p.provider) (hlog : p'.log = p.log) : Quiet p p' :=
  ⟨fun c => by rw [hconnections], fun c => by rw [hconnections], hprovider, [], hlog, by simp⟩

theorem Quiet.refl (p : State) : Quiet p p := .of_same rfl rfl rfl

theorem Quiet.trans {p p' p'' : State} (h : Quiet p p') (h' : Quiet p' p'') : Quiet p p'' := by
  obtain ⟨new, hlog, hnew⟩ := h.log
  obtain ⟨new', hlog', hnew'⟩ := h'.log
  refine ⟨fun c => (h'.resource c).trans (h.resource c),
    fun c => (h'.lastFiletime c).trans (h.lastFiletime c), h'.provider.trans h.provider,
    new' ++ new, by rw [hlog', hlog, List.append_assoc], fun o ho => ?_⟩
  exact (List.mem_append.mp ho).elim (hnew' o) (hnew o)

theorem quiet_setConnection (p : State) (c : Nat) {connection : Connection}
    (hresource : connection.resource = (p.connections c).resource)
    (hfiletime : connection.lastFiletime = (p.connections c).lastFiletime) :
    Quiet p (p.setConnection c connection) := by
  refine ⟨fun c' => ?_, fun c' => ?_, rfl, [], rfl, by simp⟩
  · unfold State.setConnection
    dsimp only
    split
    · rename_i heq
      rw [heq, hresource]
    · rfl
  · unfold State.setConnection
    dsimp only
    split
    · rename_i heq
      rw [heq, hfiletime]
    · rfl

theorem quiet_observe (p : State) {o : Obs} (h : ¬ o.ofResponse) : Quiet p (p.observe o) :=
  ⟨fun _ => rfl, fun _ => rfl, rfl, [o], rfl, by simpa using h⟩

theorem quiet_tally (p : State) (counter : Counter) (n : Nat) : Quiet p (p.tally counter n) :=
  .of_same rfl rfl rfl

/-! ## Quiet steps -/

variable {platform : Platform} {config : Config}

theorem prepare_quiet (platform : Platform) (config : Config) (flags : QueryFlags) (t0 : Int)
    (easyInit : Nat → Bool) (pending : List Nat) (p : State) :
    Quiet p (pending.foldl (prepare platform config flags t0 easyInit) p) := by
  induction pending generalizing p with
  | nil => exact .refl p
  | cons c pending ih =>
    refine Quiet.trans ?_ (ih _)
    unfold prepare
    dsimp only
    split
    · exact Quiet.trans (quiet_setConnection p c (by rfl) (by rfl)) (quiet_observe _ fun h => h)
    · exact Quiet.trans (quiet_setConnection p c (by rfl) (by rfl)) (quiet_observe _ fun h => h)

theorem callback_quiet (call : Callback) (p : State) : Quiet p (callback platform call p).2 := by
  cases call with
  | data c chunk =>
    have hsame : (onHttpData (p.connections c) chunk).2.resource = (p.connections c).resource := by
      unfold onHttpData
      split <;> rfl
    exact quiet_setConnection p c hsame (onHttpData_lastFiletime _ _)
  | header c line =>
    have hobserve := quiet_observe p (o := .header c line) fun h => h
    unfold callback
    rcases onHttpHeader_cases platform (p.connections c) line with
      ⟨_, httpd, heq⟩ | ⟨_, e, _, heq⟩
    · simp only [heq]
      exact hobserve.trans (quiet_setConnection _ c rfl rfl)
    · simp only [heq]
      exact hobserve

theorem transfers_quiet (platform : Platform) (input : RoundInput) (requests : Nat) (p : State) :
    Quiet p (transfers platform input requests p).2 :=
  transfers_rel Quiet .refl (fun _ _ _ h h' => h.trans h') callback_quiet
    (fun p requests => quiet_tally p _ requests) input requests p

/-- What a callback throws is no exception of RFA. -/
theorem transfers_error (platform : Platform) (input : RoundInput) (requests : Nat) (p : State) :
    (transfers platform input requests p).1 ≠ .error .invalidUsage := by
  have hloop : ∀ calls p, (Faults.forEach (callback platform) calls p).1 ≠
      .error .invalidUsage := by
    intro calls p
    refine Faults.forEach_outcome (fun (r : Except Fault Unit) _ => r ≠ .error .invalidUsage)
      (fun call _ p _ => ?_) (by simp)
    cases call with
    | data c chunk => simp [callback]
    | header c line =>
      unfold callback
      rcases onHttpHeader_cases platform (p.connections c) line with
        ⟨_, httpd, heq⟩ | ⟨_, e, hne, heq⟩
      · simp [heq]
      · simpa [heq] using hne
  have hfirst := hloop input.first p
  unfold transfers
  cases hr : Faults.forEach (callback platform) input.first p with
  | mk r p' =>
    rw [hr] at hfirst
    cases r with
    | error e => exact hfirst
    | ok _ => exact hloop _ _

theorem cleanup_quiet (p : State) (td : Int) : Quiet p (p.cleanup.recordTime td) := by
  refine ⟨fun c => ?_, fun c => ?_, rfl, [], rfl, by simp⟩
  · change (if c < p.count then _ else _ : Connection).resource = _
    split <;> rfl
  · change (if c < p.count then _ else _ : Connection).lastFiletime = _
    split <;> rfl

/-! ## The query -/

/-- A fact about how a step ended and the state it left, which every step of a query keeps. -/
structure QueryInvariant (platform : Platform) (config : Config)
    (I : Except Fault Unit → State → Prop) : Prop where
  quiet : ∀ {p p'} r, r ≠ .error .invalidUsage → Quiet p p' → I (.ok ()) p → I r p'
  message : ∀ message q, I (.ok ()) q.state →
    I (handleMessage platform config message q).1 (handleMessage platform config message q).2.state

variable {I : Except Fault Unit → State → Prop}

theorem queryRound_invariant (h : QueryInvariant platform config I) (flags : QueryFlags) (t0 : Int)
    (input : RoundInput) {q : Query} (hq : I (.ok ()) q.state) :
    I (queryRound platform config flags t0 input q).1
      (queryRound platform config flags t0 input q).2.state := by
  have herror := transfers_error platform input q.pending.length
    (q.pending.foldl (prepare platform config flags t0 input.easyInit) q.state)
  have htransfers := (prepare_quiet platform config flags t0 input.easyInit q.pending
    q.state).trans (transfers_quiet platform input q.pending.length _)
  rcases queryRound_cases platform config flags t0 input q with ⟨e, he, heq⟩ | ⟨_, heq⟩
  · rw [he] at herror
    rw [heq]
    exact h.quiet _ herror htransfers hq
  · rw [heq]
    exact Faults.forEach_outcome (fun r (q' : Query) => I r q'.state)
      (fun message _ q' hq' => h.message message q' hq') (h.quiet _ (by simp) htransfers hq)

theorem queryRounds_invariant (h : QueryInvariant platform config I) (flags : QueryFlags)
    (t0 : Int) (inputs : Nat → RoundInput) (retries : Nat) (sleep : Int) (n : Nat) {q : Query}
    (hq : I (.ok ()) q.state) :
    I (queryRounds platform config flags t0 inputs retries sleep n q).1
      (queryRounds platform config flags t0 inputs retries sleep n q).2.state := by
  induction retries using Nat.strong_induction_on generalizing sleep n q with
  | _ retries ih =>
    have hround := queryRound_invariant h flags t0 (inputs n) hq
    rcases queryRounds_cases platform config flags t0 inputs retries sleep n q with
      ⟨heq, _⟩ | ⟨hok, _, heq⟩ | ⟨hok, _, left, hleft, heq⟩
    · rw [heq]
      exact hround
    · rw [heq]
      rw [hok] at hround
      exact h.quiet _ (by simp) ((quiet_tally _ _ _).trans
        (quiet_observe _ (o := .retriesExceeded) fun h => h)) hround
    · rw [heq]
      rw [hok] at hround
      exact ih left (by omega) _ _
        (h.quiet _ (by simp) (quiet_observe _ (o := .sleep sleep) fun h => h) hround)

/-- What every step of a query keeps, every query keeps. -/
theorem httpPsychQuery_invariant (h : QueryInvariant platform config I) (flags : QueryFlags)
    (input : QueryInput) {p : State} (hp : I (.ok ()) p) :
    I (httpPsychQuery platform config flags input p).1
      (httpPsychQuery platform config flags input p).2 := by
  have hrounds := queryRounds_invariant h flags input.t0 input.rounds
    (atol config.retryCount).toNat (firstSleep config) 0
    (q := { state := p, pending := List.range p.count }) hp
  unfold httpPsychQuery
  cases hr : queryRounds platform config flags input.t0 input.rounds
      (atol config.retryCount).toNat (firstSleep config) 0
      { state := p, pending := List.range p.count } with
  | mk r q =>
    rw [hr] at hrounds
    cases r with
    | error e => exact hrounds
    | ok _ => exact h.quiet _ (by simp) (cleanup_quiet q.state _) hrounds

end Psych
