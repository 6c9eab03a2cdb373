import Psych.Query.Messages

/-!
# What a query records

A fact about the entries a query adds to the log, and about whether it ended without a
fault, is proved once for each kind of step (`QueryRule`) and passes to every query with
every input (`httpPsychQuery_emits`).
-/

namespace Psych

open Faults (Emits Composable)

/-- A composable fact that every step of a query meets. -/
structure QueryRule (platform : Platform) (config : Config) (Q : Bool → List Obs → Prop) : Prop
    extends Composable Q where
  request : ∀ c r, Q true [.request c r]
  header : ∀ c line, Q (headerFine platform line) [.header c line]
  sleep : ∀ milliseconds, Q true [.sleep milliseconds]
  retriesExceeded : Q true [.retriesExceeded]
  message : ∀ message q r, Handled platform config message q r → message.1 ∈ q.pending →
    Emits (fun q : Query => q.state.log) Q q r

variable {platform : Platform} {config : Config} {Q : Bool → List Obs → Prop}

theorem prepare_emits (h : QueryRule platform config Q) (flags : QueryFlags) (t0 : Int)
    (easyInit : Nat → Bool) (pending : List Nat) (p : State) :
    Emits State.log Q p
      ((.ok (), pending.foldl (prepare platform config flags t0 easyInit) p) :
        Except Fault Unit × State) := by
  induction pending generalizing p with
  | nil => exact ⟨[], rfl, h.nil⟩
  | cons c pending ih =>
    have hc : Emits State.log Q p
        ((.ok (), prepare platform config flags t0 easyInit p c) : Except Fault Unit × State) := by
      unfold prepare
      dsimp only
      split
      · exact ⟨[_], rfl, h.request c _⟩
      · exact ⟨[_], rfl, h.request c _⟩
    exact hc.seq h.toComposable rfl (ih _)

theorem callback_emits (hQ : Composable Q)
    (hheader : ∀ c line, Q (headerFine platform line) [.header c line]) (call : Callback)
    (p : State) : Emits State.log Q p (callback platform call p) := by
  cases call with
  | data c chunk => exact ⟨[], rfl, hQ.nil⟩
  | header c line =>
    have hline := hheader c line
    unfold callback
    dsimp only
    rcases onHttpHeader_cases platform (p.connections c) line with
      ⟨hfine, httpd, heq⟩ | ⟨hfine, e, _, heq⟩
    · rw [heq]
      rw [hfine] at hline
      exact ⟨[_], rfl, hline⟩
    · rw [heq]
      rw [hfine] at hline
      exact ⟨[_], rfl, hline⟩

/-- What the callbacks and the counter of the requests keep, the transfers keep. -/
theorem transfers_rel (R : State → State → Prop) (hrefl : ∀ p, R p p)
    (htrans : ∀ p p' p'', R p p' → R p' p'' → R p p'')
    (hcallback : ∀ call p, R p (callback platform call p).2)
    (htally : ∀ p requests, R p (p.tally .httpRequestSent requests)) (input : RoundInput)
    (requests : Nat) (p : State) : R p (transfers platform input requests p).2 := by
  have hloop : ∀ calls p, R p (Faults.forEach (callback platform) calls p).2 :=
    Faults.forEach_rel R hrefl htrans hcallback
  have hfirst := hloop input.first p
  unfold transfers
  cases hr : Faults.forEach (callback platform) input.first p with
  | mk r p' =>
    rw [hr] at hfirst
    cases r with
    | error e => exact hfirst
    | ok _ => exact htrans _ _ _ hfirst (htrans _ _ _ (htally p' requests) (hloop _ _))

theorem transfers_emits (hQ : Composable Q)
    (hheader : ∀ c line, Q (headerFine platform line) [.header c line]) (input : RoundInput)
    (requests : Nat) (p : State) :
    Emits State.log Q p (transfers platform input requests p) := by
  have hloop : ∀ calls p, Emits State.log Q p (Faults.forEach (callback platform) calls p) :=
    fun calls p => Emits.forEach hQ (fun _ _ => True)
      (fun _ call _ p _ _ => ⟨callback_emits hQ hheader call p, fun _ => trivial⟩) trivial
  have hfirst := hloop input.first p
  unfold transfers
  cases hr : Faults.forEach (callback platform) input.first p with
  | mk r p' =>
    rw [hr] at hfirst
    cases r with
    | error e => exact hfirst.congr rfl rfl rfl
    | ok _ =>
      apply hfirst.seq hQ rfl
      exact (hloop input.further (p'.tally .httpRequestSent requests)).congr rfl rfl rfl

/-! ## The messages of a round -/

theorem reported_fst (input : RoundInput) (pending : List Nat) :
    (input.reported pending).map Prod.fst =
      input.order.dedup.filter fun c => pending.contains c && input.easyInit c := by
  unfold RoundInput.reported
  rw [List.map_map]
  exact List.map_id _

theorem reported_nodup (input : RoundInput) (pending : List Nat) :
    ((input.reported pending).map Prod.fst).Nodup := by
  rw [reported_fst]
  exact (List.nodup_dedup _).filter _

theorem mem_reported {input : RoundInput} {pending : List Nat} {message : Nat × Report}
    (h : message ∈ input.reported pending) : message.1 ∈ pending := by
  have hmem := List.mem_map_of_mem (f := Prod.fst) h
  rw [reported_fst, List.mem_filter, Bool.and_eq_true, List.contains_iff_mem] at hmem
  exact hmem.2.1

/-- The connections of the messages still to come are pending. -/
def awaiting (messages pre : List (Nat × Report)) (q : Query) : Prop :=
  ∀ c ∈ messages.map Prod.fst, c ∉ pre.map Prod.fst → c ∈ q.pending

theorem awaiting_head {messages pre post : List (Nat × Report)} {message : Nat × Report}
    {q : Query} (hnodup : (messages.map Prod.fst).Nodup)
    (hsplit : messages = pre ++ message :: post) (h : awaiting messages pre q) :
    message.1 ∈ q.pending := by
  refine h message.1 (List.mem_map_of_mem (by rw [hsplit]; simp)) fun hpre => ?_
  rw [hsplit, List.map_append, List.map_cons, List.nodup_append] at hnodup
  exact hnodup.2.2 message.1 hpre message.1 List.mem_cons_self rfl

theorem awaiting_step {messages pre : List (Nat × Report)} {message : Nat × Report} {q : Query}
    {r : Except Fault Unit × Query} (hr : Handled platform config message q r)
    (h : awaiting messages pre q) : awaiting messages (pre ++ [message]) r.2 := by
  intro c hc hno
  rw [List.map_append, List.mem_append, not_or, List.map_singleton, List.mem_singleton] at hno
  have hmem := h c hc hno.1
  cases hr with
  | faulted _ _ _ _ _ hpending => rw [hpending]; exact hmem
  | rejected _ _ _ _ hpending => rw [hpending]; exact hmem
  | undefined _ _ _ _ _ hpending => rw [hpending]; exact hmem
  | accepted _ _ _ _ _ _ hpending =>
    rw [hpending]
    exact (List.mem_erase_of_ne hno.2).mpr hmem

theorem messages_emits (h : QueryRule platform config Q) {messages : List (Nat × Report)}
    (hnodup : (messages.map Prod.fst).Nodup) {q : Query}
    (hpending : ∀ message ∈ messages, message.1 ∈ q.pending) :
    Emits (fun q : Query => q.state.log) Q q
      (Faults.forEach (handleMessage platform config) messages q) := by
  refine Emits.forEach h.toComposable (awaiting messages)
    (fun pre message post q hsplit hq => ⟨?_, fun _ => ?_⟩) fun c hc _ => ?_
  · exact h.message message q _ (handleMessage_cases message q) (awaiting_head hnodup hsplit hq)
  · exact awaiting_step (handleMessage_cases message q) hq
  · obtain ⟨message, hm, rfl⟩ := List.mem_map.mp hc
    exact hpending message hm

/-! ## The query -/

/-- A round ends where a callback throws, or goes through its messages. -/
theorem queryRound_cases (platform : Platform) (config : Config) (flags : QueryFlags) (t0 : Int)
    (input : RoundInput) (q : Query) :
    let transferred := transfers platform input q.pending.length
      (q.pending.foldl (prepare platform config flags t0 input.easyInit) q.state)
    let round := queryRound platform config flags t0 input q
    (∃ e, transferred.1 = .error e ∧ round = (.error e, { q with state := transferred.2 })) ∨
    (transferred.1 = .ok () ∧ round =
      Faults.forEach (handleMessage platform config) (input.reported q.pending)
        { q with state := transferred.2, engineVersion := [] }) := by
  unfold queryRound
  dsimp only
  cases transfers platform input q.pending.length
      (q.pending.foldl (prepare platform config flags t0 input.easyInit) q.state) with
  | mk r p =>
    cases r with
    | error e => exact Or.inl ⟨e, rfl, rfl⟩
    | ok _ => exact Or.inr ⟨rfl, rfl⟩

theorem queryRound_emits (h : QueryRule platform config Q) (flags : QueryFlags) (t0 : Int)
    (input : RoundInput) (q : Query) :
    Emits (fun q : Query => q.state.log) Q q (queryRound platform config flags t0 input q) := by
  have hprepared := prepare_emits h flags t0 input.easyInit q.pending q.state
  have htransfers := hprepared.seq h.toComposable rfl
    (transfers_emits h.toComposable h.header input q.pending.length _)
  have hmid : Emits (fun q : Query => q.state.log) Q q
      (((transfers platform input q.pending.length _).1,
        { q with state := (transfers platform input q.pending.length _).2 }) :
        Except Fault Unit × Query) := htransfers.congr rfl rfl rfl
  rcases queryRound_cases platform config flags t0 input q with ⟨e, herror, heq⟩ | ⟨hok, heq⟩
  · rw [herror] at hmid
    rw [heq]
    exact hmid
  · rw [heq]
    apply hmid.seq h.toComposable (by rw [Faults.succeeded, hok])
    exact (messages_emits h (reported_nodup input q.pending)
      (q := ⟨_, q.pending, []⟩) fun message hm => mem_reported hm).congr rfl rfl rfl

theorem abortTransfer_emits (h : QueryRule platform config Q) (q : Query) :
    Emits (fun q : Query => q.state.log) Q q
      ((.ok (), q.abortTransfer) : Except Fault Unit × Query) :=
  ⟨[_], rfl, h.retriesExceeded⟩

/-- After a round the loop ends, aborts the transfers that are left, or retries them. -/
theorem queryRounds_cases (platform : Platform) (config : Config) (flags : QueryFlags) (t0 : Int)
    (inputs : Nat → RoundInput) (retries : Nat) (sleep : Int) (n : Nat) (q : Query) :
    let r := queryRound platform config flags t0 (inputs n) q
    let loop := queryRounds platform config flags t0 inputs
    (loop retries sleep n q = r ∧ (r.1 = .ok () → r.2.pending = [])) ∨
    (r.1 = .ok () ∧ r.2.pending ≠ [] ∧ loop retries sleep n q = (.ok (), r.2.abortTransfer)) ∨
    (r.1 = .ok () ∧ r.2.pending ≠ [] ∧ ∃ left, retries = left + 1 ∧ loop retries sleep n q =
      loop left (nextSleep config sleep) (n + 1) (r.2.observe (.sleep sleep))) := by
  have hloop := queryRounds.eq_def platform config flags t0 inputs retries sleep n q
  dsimp only at hloop ⊢
  cases hr : queryRound platform config flags t0 (inputs n) q with
  | mk r q' =>
    rw [hr] at hloop
    cases r with
    | error e => exact Or.inl ⟨hloop, fun h => by cases h⟩
    | ok _ =>
      dsimp only at hloop
      by_cases hempty : q'.pending = []
      · rw [if_pos (by rw [hempty]; rfl)] at hloop
        exact Or.inl ⟨hloop, fun _ => hempty⟩
      · rw [if_neg (by rw [List.isEmpty_iff]; exact hempty)] at hloop
        right
        cases retries with
        | zero => exact Or.inl ⟨rfl, hempty, hloop⟩
        | succ retries =>
          dsimp only at hloop
          split at hloop
          · exact Or.inr ⟨rfl, hempty, retries, rfl, hloop⟩
          · exact Or.inl ⟨rfl, hempty, hloop⟩

theorem queryRounds_emits (h : QueryRule platform config Q) (flags : QueryFlags) (t0 : Int)
    (inputs : Nat → RoundInput) (retries : Nat) (sleep : Int) (n : Nat) (q : Query) :
    Emits (fun q : Query => q.state.log) Q q
      (queryRounds platform config flags t0 inputs retries sleep n q) := by
  induction retries using Nat.strong_induction_on generalizing sleep n q with
  | _ retries ih =>
    have hround := queryRound_emits h flags t0 (inputs n) q
    rcases queryRounds_cases platform config flags t0 inputs retries sleep n q with
      ⟨heq, _⟩ | ⟨hok, _, heq⟩ | ⟨hok, _, left, hleft, heq⟩
    · rw [heq]
      exact hround
    · rw [heq]
      exact hround.seq h.toComposable (by rw [Faults.succeeded, hok]) (abortTransfer_emits h _)
    · have hsleep : ∀ q' : Query, Emits (fun q : Query => q.state.log) Q q'
          ((.ok (), q'.observe (.sleep sleep)) : Except Fault Unit × Query) :=
        fun _ => ⟨[_], rfl, h.sleep sleep⟩
      have hslept := hround.seq h.toComposable (by rw [Faults.succeeded, hok]) (hsleep _)
      rw [heq]
      exact hslept.seq h.toComposable rfl (ih left (by omega) _ _ _)

theorem anything_rule (platform : Platform) (config : Config) :
    QueryRule platform config (fun _ _ => True) where
  nil := trivial
  append _ _ := trivial
  request _ _ := trivial
  header _ _ := trivial
  sleep _ := trivial
  retriesExceeded := trivial
  message message q r hr _ := by
    cases hr with
    | faulted _ _ _ log | rejected _ _ log => exact ⟨[_], log, trivial⟩
    | undefined _ _ _ log => exact ⟨[_, _], log, trivial⟩
    | accepted _ _ _ _ log => exact ⟨[_, _, _], log, trivial⟩

/-- The log only grows. -/
theorem queryRounds_log (platform : Platform) (config : Config) (flags : QueryFlags) (t0 : Int)
    (inputs : Nat → RoundInput) (retries : Nat) (sleep : Int) (n : Nat) (q : Query) : ∃ new,
      (queryRounds platform config flags t0 inputs retries sleep n q).2.state.log =
        new ++ q.state.log := by
  obtain ⟨new, hlog, _⟩ := queryRounds_emits (anything_rule platform config) flags t0 inputs
    retries sleep n q
  exact ⟨new, hlog⟩

theorem httpPsychQuery_log (platform : Platform) (config : Config) (flags : QueryFlags)
    (input : QueryInput) (p : State) :
    (httpPsychQuery platform config flags input p).2.log =
      (queryRounds platform config flags input.t0 input.rounds (atol config.retryCount).toNat
        (firstSleep config) 0 { state := p, pending := List.range p.count }).2.state.log := by
  unfold httpPsychQuery
  split
  · rename_i h
    rw [h]
  · rename_i h
    rw [h]
    rfl

/-- What every step of a query meets, every query meets. -/
theorem httpPsychQuery_emits (h : QueryRule platform config Q) (flags : QueryFlags)
    (input : QueryInput) (p : State) :
    Emits State.log Q p (httpPsychQuery platform config flags input p) := by
  have hrounds := queryRounds_emits h flags input.t0 input.rounds (atol config.retryCount).toNat
    (firstSleep config) 0 { state := p, pending := List.range p.count }
  unfold httpPsychQuery
  cases hr : queryRounds platform config flags input.t0 input.rounds
      (atol config.retryCount).toNat (firstSleep config) 0
      { state := p, pending := List.range p.count } with
  | mk r q =>
    rw [hr] at hrounds
    cases r with
    | error e => exact hrounds.congr rfl rfl rfl
    | ok _ => exact hrounds.congr rfl rfl rfl

end Psych
