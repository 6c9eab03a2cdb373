import Psych.Query.RoundLog

/-!
# The carousel

`pending` is changed by the messages of a round and is the input of the next one. At every
moment of a query (`moments`) it holds the connections whose table has not been published,
each once (`Carousel`); so the connection of every message is found exactly once, and
`erase` never gets the end iterator.

A moment is a state between two steps of `httpPsychQuery`, with the message that comes next
where there is one. After an exception there is none.
-/

namespace Psych

variable {platform : Platform} {config : Config}

/-! ## Moments -/

/-- The moments of a round. -/
def roundMoments (platform : Platform) (config : Config) (flags : QueryFlags) (t0 : Int)
    (input : RoundInput) (q : Query) : List (Option (Nat × Report) × Query) :=
  (none, q) ::
    match transfers platform input q.pending.length
        (q.pending.foldl (prepare platform config flags t0 input.easyInit) q.state) with
    | (.error _, _) => []
    | (.ok (), p) =>
      Faults.visits (handleMessage platform config) (input.reported q.pending)
        { q with state := p, engineVersion := [] }

/-- The moments of the loop of `httpPsychQuery`. -/
def queryMoments (platform : Platform) (config : Config) (flags : QueryFlags) (t0 : Int)
    (inputs : Nat → RoundInput) : Nat → Int → Nat → Query → List (Option (Nat × Report) × Query)
  | retries, sleep, n, q =>
    roundMoments platform config flags t0 (inputs n) q ++
      match queryRound platform config flags t0 (inputs n) q with
      | (.error _, _) => []
      | (.ok (), q) =>
        if q.pending.isEmpty then []
        else
          match retries with
          | 0 => [(none, q.abortTransfer)]
          | retries + 1 =>
            if inTime config t0 (inputs n).clock then
              queryMoments platform config flags t0 inputs retries (nextSleep config sleep) (n + 1)
                (q.observe (.sleep sleep))
            else [(none, q.abortTransfer)]

/-- The moments of `httpPsychQuery`, with the log of this query alone. -/
def moments (platform : Platform) (config : Config) (flags : QueryFlags) (input : QueryInput)
    (p : State) : List (Option (Nat × Report) × Query) :=
  queryMoments platform config flags input.t0 input.rounds (atol config.retryCount).toNat
    (firstSleep config) 0 { state := { p with log := [] }, pending := List.range p.count }

theorem queryRound_mem_moments {flags : QueryFlags} {t0 : Int} {input : RoundInput} (q : Query)
    (hok : (queryRound platform config flags t0 input q).1 = .ok ()) :
    (none, (queryRound platform config flags t0 input q).2) ∈
      roundMoments platform config flags t0 input q := by
  unfold queryRound at hok ⊢
  unfold roundMoments
  dsimp only at hok ⊢
  apply List.mem_cons_of_mem
  cases hr : transfers platform input q.pending.length
      (q.pending.foldl (prepare platform config flags t0 input.easyInit) q.state) with
  | mk r p =>
    rw [hr] at hok
    cases r with
    | error e => cases hok
    | ok _ => exact Faults.mem_visits hok

/-- The loop ends in one of its moments, where no exception leaves it. -/
theorem queryRounds_mem_moments {flags : QueryFlags} {t0 : Int} {inputs : Nat → RoundInput}
    {retries : Nat} {sleep : Int} {n : Nat} {q : Query}
    (hok : (queryRounds platform config flags t0 inputs retries sleep n q).1 = .ok ()) :
    (none, (queryRounds platform config flags t0 inputs retries sleep n q).2) ∈
      queryMoments platform config flags t0 inputs retries sleep n q := by
  induction retries using Nat.strong_induction_on generalizing sleep n q with
  | _ retries ih =>
    have hmem : (queryRound platform config flags t0 (inputs n) q).1 = .ok () →
        (none, (queryRound platform config flags t0 (inputs n) q).2) ∈
          roundMoments platform config flags t0 (inputs n) q :=
      queryRound_mem_moments q
    rw [queryRounds.eq_def] at hok ⊢
    rw [queryMoments.eq_def]
    dsimp only at hok ⊢
    cases hr : queryRound platform config flags t0 (inputs n) q with
    | mk r q' =>
      rw [hr] at hok hmem
      cases r with
      | error e => cases hok
      | ok _ =>
        dsimp only at hok ⊢
        by_cases hempty : q'.pending.isEmpty = true
        · rw [if_pos hempty, if_pos hempty]
          exact List.mem_append_left _ (hmem rfl)
        · rw [if_neg hempty] at hok ⊢
          rw [if_neg hempty]
          apply List.mem_append_right
          cases retries with
          | zero => exact List.mem_singleton_self _
          | succ retries =>
            dsimp only at hok ⊢
            by_cases htime : inTime config t0 (inputs n).clock = true
            · rw [if_pos htime] at hok ⊢
              rw [if_pos htime]
              exact ih retries (by omega) hok
            · rw [if_neg htime, if_neg htime]
              exact List.mem_singleton_self _

/-! ## The invariant -/

/-- The entry says that the table of a connection was given to `SendRefresh`. -/
def Obs.publishes (c : Nat) : Obs → Bool
  | .refresh c' .. => c' == c
  | _ => false

/-- The response of a connection was accepted, and its table given to `SendRefresh`. -/
def acceptedIn (c : Nat) (log : List Obs) : Prop := ∃ o ∈ log, o.publishes c = true

/-- An accepted connection is not requested again. -/
def requestsOpen (o : Obs) (older : List Obs) : Prop :=
  ∀ c request, o = .request c request → ¬ acceptedIn c older

/-- What the log of a query says: no accepted connection is requested again, and no table of a
connection is published twice. -/
structure Orderly (log : List Obs) : Prop where
  requests : Faults.Chronicle requestsOpen log
  once : ∀ c, log.countP (Obs.publishes c) ≤ 1

/-- The connections that are pending are those not accepted so far, each once. -/
structure Carousel (count : Nat) (q : Query) : Prop where
  nodup : q.pending.Nodup
  mem : ∀ c, c ∈ q.pending ↔ c < count ∧ ¬ acceptedIn c q.state.log
  orderly : Orderly q.state.log

theorem acceptedIn_append (c : Nat) (new old : List Obs) :
    acceptedIn c (new ++ old) ↔ acceptedIn c new ∨ acceptedIn c old := by
  unfold acceptedIn
  simp only [List.mem_append, or_and_right, exists_or]

theorem countP_publishes_eq_zero {c : Nat} {log : List Obs} (h : ¬ acceptedIn c log) :
    log.countP (Obs.publishes c) = 0 := by
  rw [List.countP_eq_zero]
  intro o ho hpub
  exact h ⟨o, ho, hpub⟩

/-- An entry that neither requests nor publishes. -/
def Obs.idle : Obs → Prop
  | .request .. | .refresh .. => False
  | _ => True

theorem Obs.idle.publishes {o : Obs} (h : o.idle) (c : Nat) : o.publishes c = false := by
  cases o with
  | refresh => exact h.elim
  | request | header | done | accept | sleep | retriesExceeded => rfl

theorem acceptedIn_idle {new : List Obs} (h : ∀ o ∈ new, o.idle) (c : Nat) (old : List Obs) :
    acceptedIn c (new ++ old) ↔ acceptedIn c old := by
  rw [acceptedIn_append]
  apply or_iff_right
  rintro ⟨o, ho, hpub⟩
  rw [(h o ho).publishes] at hpub
  cases hpub

theorem Orderly.idle {new old : List Obs} (h : Orderly old) (hnew : ∀ o ∈ new, o.idle) :
    Orderly (new ++ old) := by
  constructor
  · refine (Faults.chronicle_append (fun o ho older c request heq => ?_) old).mpr h.requests
    have hidle := hnew o ho
    rw [heq] at hidle
    exact hidle.elim
  · intro c
    have hzero : new.countP (Obs.publishes c) = 0 := by
      rw [List.countP_eq_zero]
      intro o ho hpub
      rw [(hnew o ho).publishes] at hpub
      cases hpub
    rw [List.countP_append, hzero, Nat.zero_add]
    exact h.once c

/-- Entries that neither request nor publish do not matter. -/
theorem Carousel.idle {count : Nat} {q q' : Query} {new : List Obs} (h : Carousel count q)
    (hlog : q'.state.log = new ++ q.state.log) (hnew : ∀ o ∈ new, o.idle)
    (hpending : q'.pending = q.pending) : Carousel count q' := by
  constructor
  · rw [hpending]
    exact h.nodup
  · intro c
    rw [hpending, hlog, acceptedIn_idle hnew]
    exact h.mem c
  · rw [hlog]
    exact h.orderly.idle hnew

/-! ## Steps -/

theorem not_acceptedIn_requests {new : List Obs}
    (h : ∀ o ∈ new, ∃ c request, o = .request c request) (c : Nat) : ¬ acceptedIn c new := by
  rintro ⟨o, ho, hpub⟩
  obtain ⟨c', request, rfl⟩ := h o ho
  cases hpub

/-- The requests of a round are of connections that were not accepted. -/
theorem Orderly.requested {new old : List Obs} (h : Orderly old)
    (hnew : ∀ o ∈ new, ∃ c, ¬ acceptedIn c old ∧ ∃ request, o = .request c request) :
    Orderly (new ++ old) := by
  have hquiet : ∀ l : List Obs, (∀ o ∈ l, o ∈ new) → ∀ c, ¬ acceptedIn c l := by
    intro l hl c
    apply not_acceptedIn_requests
    intro o ho
    obtain ⟨c, _, request, heq⟩ := hnew o (hl o ho)
    exact ⟨c, request, heq⟩
  constructor
  · suffices hall : ∀ l : List Obs, (∀ o ∈ l, o ∈ new) →
        Faults.Chronicle requestsOpen (l ++ old) from hall new fun o ho => ho
    intro l hl
    induction l with
    | nil => exact h.requests
    | cons o l ih =>
      have htail : ∀ x ∈ l, x ∈ new := fun x hx => hl x (List.mem_cons_of_mem o hx)
      rw [List.cons_append, Faults.Chronicle]
      refine ⟨?_, ih htail⟩
      intro c request heq
      obtain ⟨c', hopen, request', heq'⟩ := hnew o (hl o List.mem_cons_self)
      rw [heq] at heq'
      cases heq'
      rw [acceptedIn_append, not_or]
      exact ⟨hquiet l htail c, hopen⟩
  · intro c
    rw [List.countP_append, countP_publishes_eq_zero (hquiet new (fun o ho => ho) c), Nat.zero_add]
    exact h.once c

/-- The table of a connection that was not accepted before is published. -/
theorem Orderly.published {old : List Obs} (h : Orderly old) {q : Query}
    {message : Nat × Report} (hopen : ¬ acceptedIn message.1 old) :
    Orderly (q.refreshObs platform config message :: old) := by
  constructor
  · refine ⟨?_, h.requests⟩
    intro c request heq
    cases heq
  · intro c
    rw [List.countP_cons]
    by_cases hc : message.1 = c
    · subst hc
      rw [countP_publishes_eq_zero hopen]
      split <;> omega
    · have hno : ((q.refreshObs platform config message).publishes c) = false := by
        simpa [Query.refreshObs, Obs.publishes] using hc
      rw [hno]
      exact h.once c

theorem acceptedIn_published (q : Query) (message : Nat × Report) (c : Nat) (old : List Obs) :
    acceptedIn c (q.refreshObs platform config message :: old) ↔
      c = message.1 ∨ acceptedIn c old := by
  unfold acceptedIn
  rw [List.exists_mem_cons_iff]
  apply or_congr_left
  show (message.1 == c) = true ↔ c = message.1
  rw [beq_iff_eq]
  exact eq_comm

theorem Carousel.message {count : Nat} {q : Query} {message : Nat × Report}
    {r : Except Fault Unit × Query} (h : Carousel count q) (hmem : message.1 ∈ q.pending)
    (hr : Handled platform config message q r) :
    Orderly r.2.state.log ∧ (r.1 = .ok () → Carousel count r.2) := by
  have hopen := ((h.mem message.1).mp hmem).2
  have hdone : ∀ o ∈ [q.doneObs platform config message], o.idle := by
    intro o ho
    rw [List.mem_singleton.mp ho]
    trivial
  have hopen' : ¬ acceptedIn message.1 (q.doneObs platform config message :: q.state.log) := by
    intro hacc
    exact hopen ((acceptedIn_idle hdone message.1 q.state.log).mp hacc)
  have hpublished : Orderly (q.refreshObs platform config message ::
      q.doneObs platform config message :: q.state.log) :=
    (h.orderly.idle hdone).published hopen'
  cases hr with
  | faulted e _ hfst hlog hprovider hpending =>
    refine ⟨?_, fun hok => ?_⟩
    · rw [hlog]
      exact h.orderly.idle hdone
    · rw [hfst] at hok
      cases hok
  | rejected _ _ hlog _ hpending =>
    refine ⟨?_, fun _ => h.idle hlog hdone hpending⟩
    rw [hlog]
    exact h.orderly.idle hdone
  | undefined _ _ hfst hlog =>
    refine ⟨?_, fun hok => ?_⟩
    · rw [hlog]
      exact hpublished
    · rw [hfst] at hok
      cases hok
  | accepted _ _ _ _ hlog _ hpending =>
    have haccept : ∀ o ∈ [Obs.accept message.1 message.2.transfer], o.idle := by
      intro o ho
      rw [List.mem_singleton.mp ho]
      trivial
    have horderly := hpublished.idle haccept
    refine ⟨?_, fun _ => ⟨?_, ?_, ?_⟩⟩
    · rw [hlog]
      exact horderly
    · rw [hpending]
      exact h.nodup.erase _
    · intro c
      have hlog' : acceptedIn c r.2.state.log ↔ c = message.1 ∨ acceptedIn c q.state.log := by
        rw [hlog]
        apply (acceptedIn_idle haccept c _).trans
        rw [acceptedIn_published]
        exact or_congr_right (acceptedIn_idle hdone c _)
      rw [hpending, h.nodup.mem_erase_iff, h.mem, hlog', not_or]
      tauto
    · rw [hlog]
      exact horderly

/-- A round starts with requests of the pending connections, and with headers. -/
theorem Carousel.transfers {count : Nat} {q : Query} (h : Carousel count q)
    (platform : Platform) (config : Config) (flags : QueryFlags) (t0 : Int) (input : RoundInput)
    (engineVersion : Text) :
    Carousel count { q with
      state := (transfers platform input q.pending.length
        (q.pending.foldl (prepare platform config flags t0 input.easyInit) q.state)).2
      engineVersion := engineVersion } := by
  obtain ⟨requests, hprepared, hall, _⟩ :=
    prepare_log platform config flags t0 input.easyInit q.pending q.state
  obtain ⟨headers, hlog, hheaders⟩ := transfers_log platform input q.pending.length
    (q.pending.foldl (prepare platform config flags t0 input.easyInit) q.state)
  have hidle : ∀ o ∈ headers, o.idle := by
    intro o ho
    obtain ⟨c, line, rfl⟩ := hheaders o ho
    trivial
  have hrequests : ∀ o ∈ requests, ∃ c, ¬ acceptedIn c q.state.log ∧
      ∃ request, o = .request c request := by
    intro o ho
    obtain ⟨c, hc, request⟩ := hall o ho
    exact ⟨c, ((h.mem c).mp hc).2, request⟩
  have hquiet : ∀ c, acceptedIn c (requests ++ q.state.log) ↔ acceptedIn c q.state.log := by
    intro c
    rw [acceptedIn_append]
    apply or_iff_right
    apply not_acceptedIn_requests
    intro o ho
    obtain ⟨c, _, request⟩ := hrequests o ho
    exact ⟨c, request⟩
  rw [hprepared] at hlog
  constructor
  · exact h.nodup
  · intro c
    show c ∈ q.pending ↔ _
    rw [h.mem]
    dsimp only
    rw [hlog, acceptedIn_idle hidle, hquiet]
  · dsimp only
    rw [hlog]
    exact (h.orderly.requested hrequests).idle hidle

/-! ## Runs -/

/-- Between the messages of a round: the carousel, and who still comes is still pending. -/
def midRound (count : Nat) (messages pre : List (Nat × Report)) (q : Query) : Prop :=
  Carousel count q ∧ awaiting messages pre q

section Round

variable {count : Nat} {messages : List (Nat × Report)} {q : Query}

theorem midRound_start {pending : List Nat} {input : RoundInput} (h : Carousel count q)
    (hpending : q.pending = pending) : midRound count (input.reported pending) [] q := by
  refine ⟨h, ?_⟩
  intro c hc _
  obtain ⟨message, hmessage, rfl⟩ := List.mem_map.mp hc
  rw [hpending]
  exact mem_reported hmessage

theorem midRound_step (hnodup : (messages.map Prod.fst).Nodup) (pre : List (Nat × Report))
    (message : Nat × Report) (post : List (Nat × Report)) (q : Query)
    (hsplit : messages = pre ++ message :: post) (h : midRound count messages pre q) :
    Orderly (handleMessage platform config message q).2.state.log ∧
      ((handleMessage platform config message q).1 = .ok () →
        midRound count messages (pre ++ [message])
          (handleMessage platform config message q).2) := by
  have hr : Handled platform config message q (handleMessage platform config message q) :=
    handleMessage_cases message q
  obtain ⟨horderly, hkeep⟩ := h.1.message (awaiting_head hnodup hsplit h.2) hr
  exact ⟨horderly, fun hok => ⟨hkeep hok, awaiting_step hr h.2⟩⟩

/-- What holds at every moment: the carousel, and the connection of the next message is found
exactly once. -/
def wellDefined (count : Nat) (m : Option (Nat × Report) × Query) : Prop :=
  Carousel count m.2 ∧ ∀ message, m.1 = some message → m.2.pending.count message.1 = 1

theorem roundMoments_wellDefined (h : Carousel count q) (platform : Platform) (config : Config)
    (flags : QueryFlags) (t0 : Int) (input : RoundInput) :
    ∀ m ∈ roundMoments platform config flags t0 input q, wellDefined count m := by
  have hstart := h.transfers platform config flags t0 input []
  have hnodup := reported_nodup input q.pending
  intro m hm
  rcases List.mem_cons.mp hm with rfl | hm
  · exact ⟨h, by simp⟩
  · cases hr : transfers platform input q.pending.length
        (q.pending.foldl (prepare platform config flags t0 input.easyInit) q.state) with
    | mk r p =>
      rw [hr] at hm hstart
      cases r with
      | error e => cases hm
      | ok _ =>
        obtain ⟨pre, hmid, hnext⟩ := Faults.visits_prefix
          (fun pre message post q' hsplit hI =>
            (midRound_step hnodup pre message post q' hsplit hI).2)
          (midRound_start hstart rfl) hm
        refine ⟨hmid.1, ?_⟩
        intro message hmessage
        obtain ⟨post, hsplit⟩ := hnext message hmessage
        exact List.count_eq_one_of_mem hmid.1.nodup (awaiting_head hnodup hsplit hmid.2)

theorem queryRound_carousel (h : Carousel count q) (platform : Platform) (config : Config)
    (flags : QueryFlags) (t0 : Int) (input : RoundInput) :
    Orderly (queryRound platform config flags t0 input q).2.state.log ∧
      ((queryRound platform config flags t0 input q).1 = .ok () →
        Carousel count (queryRound platform config flags t0 input q).2) := by
  have hstart := h.transfers platform config flags t0 input []
  have hnodup := reported_nodup input q.pending
  rcases queryRound_cases platform config flags t0 input q with ⟨e, _, heq⟩ | ⟨_, heq⟩
  · rw [heq]
    exact ⟨hstart.orderly, fun hok => by cases hok⟩
  · have hloop := Faults.forEach_prefix (f := handleMessage platform config)
      (F := fun _ q' => Orderly q'.state.log)
      (fun pre message post q' hsplit hI =>
        (midRound_step hnodup pre message post q' hsplit hI).2)
      (fun pre message post q' _ hsplit hI _ =>
        (midRound_step hnodup pre message post q' hsplit hI).1)
      (midRound_start hstart rfl)
    rw [heq]
    rcases hloop with ⟨_, hmid⟩ | ⟨e, he, horderly⟩
    · exact ⟨hmid.1.orderly, fun _ => hmid.1⟩
    · refine ⟨horderly, ?_⟩
      intro hok
      rw [he] at hok
      cases hok

end Round

theorem queryRounds_carousel {count : Nat} {q : Query} (h : Carousel count q)
    (platform : Platform) (config : Config) (flags : QueryFlags) (t0 : Int)
    (inputs : Nat → RoundInput) (retries : Nat) (sleep : Int) (n : Nat) :
    (∀ m ∈ queryMoments platform config flags t0 inputs retries sleep n q, wellDefined count m) ∧
      Orderly (queryRounds platform config flags t0 inputs retries sleep n q).2.state.log := by
  induction retries using Nat.strong_induction_on generalizing sleep n q with
  | _ retries ih =>
    have hmoments := roundMoments_wellDefined h platform config flags t0 (inputs n)
    obtain ⟨horderly, hkeep⟩ := queryRound_carousel h platform config flags t0 (inputs n)
    rw [queryMoments.eq_def, queryRounds.eq_def]
    dsimp only
    cases hr : queryRound platform config flags t0 (inputs n) q with
    | mk r q' =>
      rw [hr] at horderly hkeep
      cases r with
      | error e =>
        refine ⟨?_, horderly⟩
        rw [List.append_nil]
        exact hmoments
      | ok _ =>
        have hcarousel : Carousel count q' := hkeep rfl
        have hundefined : Carousel count q'.abortTransfer :=
          hcarousel.idle (show _ = [Obs.retriesExceeded] ++ _ from rfl) (by simp [Obs.idle]) rfl
        have hsleep : Carousel count (q'.observe (.sleep sleep)) :=
          hcarousel.idle (show _ = [Obs.sleep sleep] ++ _ from rfl) (by simp [Obs.idle]) rfl
        have hlast : ∀ m ∈ [((none, q'.abortTransfer) : Option (Nat × Report) × Query)],
            wellDefined count m := by
          intro m hm
          rw [List.mem_singleton.mp hm]
          exact ⟨hundefined, by simp⟩
        dsimp only
        by_cases hempty : q'.pending.isEmpty = true
        · rw [if_pos hempty, if_pos hempty, List.append_nil]
          exact ⟨hmoments, horderly⟩
        · rw [if_neg hempty, if_neg hempty]
          cases retries with
          | zero => exact ⟨List.forall_mem_append.mpr ⟨hmoments, hlast⟩, hundefined.orderly⟩
          | succ retries =>
            dsimp only
            by_cases htime : inTime config t0 (inputs n).clock = true
            · rw [if_pos htime, if_pos htime]
              obtain ⟨hrest, hfinal⟩ := ih retries (by omega) hsleep (nextSleep config sleep)
                (n + 1)
              exact ⟨List.forall_mem_append.mpr ⟨hmoments, hrest⟩, hfinal⟩
            · rw [if_neg htime, if_neg htime]
              exact ⟨List.forall_mem_append.mpr ⟨hmoments, hlast⟩, hundefined.orderly⟩

/-- At every moment of a query `pending` holds the connections not accepted so far, each once,
and the connection of the next message is found exactly once; no accepted connection is requested
again, and no table is published twice. -/
theorem httpPsychQuery_carousel (platform : Platform) (config : Config) (flags : QueryFlags)
    (input : QueryInput) (p : State) :
    (∀ m ∈ moments platform config flags input p, wellDefined p.count m) ∧
      Orderly (queryLog platform config flags input p) := by
  have hstart : Carousel p.count
      { state := { p with log := [] }, pending := List.range p.count } := by
    constructor
    · exact List.nodup_range
    · intro c
      rw [List.mem_range]
      simp [acceptedIn]
    · exact ⟨trivial, by simp⟩
  obtain ⟨hmoments, horderly⟩ := queryRounds_carousel hstart platform config flags input.t0
    input.rounds (atol config.retryCount).toNat (firstSleep config) 0
  refine ⟨hmoments, ?_⟩
  rw [queryLog, httpPsychQuery_log]
  exact horderly

end Psych
