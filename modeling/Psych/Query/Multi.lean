import Psych.Http.Counters
import Psych.Query.Invariants

/-!
# Queries on the shared multi handle

All queries of an instance, those of the timer and those of the Tcl commands, add their easy
handles to one multi handle and read their messages from it. `httpPsychQueryOn` is
`httpPsychQuery` with the multi handle: what an earlier query has left there is reported as well.
A query may work on any connections (`own`), and the handle of a connection is removed, closed
or left where the source does so.

What every step of a query keeps, every query keeps (`httpPsychQueryOn_invariant`).
-/

namespace Psych

/-! ## The multi handle -/

/-- What is done with the easy handle of a connection. -/
inductive HandleOp where
  /-- `curl_multi_add_handle`. -/
  | add (c : Nat)
  /-- A `CURLMSG_DONE` message is read: whether the request was counted, and whether the
  connection is pending. -/
  | done (c : Nat) (counted own : Bool)
  /-- `curl_multi_remove_handle`. -/
  | remove (c : Nat)
  /-- `curl_easy_cleanup`, and whether the multi handle contained the easy handle then. -/
  | close (c : Nat) (attached : Bool)
deriving DecidableEq

structure Multi where
  /-- The connections whose easy handle the multi handle contains. -/
  attached : List Nat := []
  /-- Those whose transfer is still to be reported. -/
  running : List Nat := []
  /-- Those whose request is not in `PSYCH_PC_HTTP_REQUEST_SENT`; not in the source. -/
  uncounted : List Nat := []
  /-- What was done, newest first; not in the source. -/
  ops : List HandleOp := []
deriving DecidableEq

def Multi.add (c : Nat) (multi : Multi) : Multi where
  attached := c :: multi.attached
  running := c :: multi.running
  uncounted := c :: multi.uncounted
  ops := .add c :: multi.ops

/-- The easy handle of the connection is no longer in the multi handle. -/
def Multi.detach (c : Nat) (op : HandleOp) (multi : Multi) : Multi where
  attached := multi.attached.filter (· ≠ c)
  running := multi.running.filter (· ≠ c)
  uncounted := multi.uncounted.filter (· ≠ c)
  ops := op :: multi.ops

def Multi.remove (c : Nat) (multi : Multi) : Multi := multi.detach c (.remove c)

/-- libcurl takes an easy handle it closes out of its multi handle. -/
def Multi.close (c : Nat) (multi : Multi) : Multi :=
  multi.detach c (.close c (multi.attached.contains c))

/-- The message of a connection is read. -/
def Multi.read (pending : List Nat) (c : Nat) (multi : Multi) : Multi :=
  { multi with
    running := multi.running.filter (· ≠ c)
    ops := .done c (!multi.uncounted.contains c) (pending.contains c) :: multi.ops }

/-- The requests of the pending connections are counted. -/
def Multi.count (pending : List Nat) (multi : Multi) : Multi :=
  { multi with uncounted := multi.uncounted.filter fun c => !pending.contains c }

/-! ## A round -/

/-- The first part of a round, for one connection: the handle it held is closed. -/
def prepareOn (platform : Platform) (config : Config) (flags : QueryFlags) (t0 : Int)
    (easyInit : Nat → Bool) (p : State × Multi) (c : Nat) : State × Multi :=
  let multi := if (p.1.connections c).handle then p.2.close c else p.2
  (prepare platform config flags t0 easyInit p.1 c, if easyInit c then multi.add c else multi)

/-- The transfers the multi handle reports as done. -/
def RoundInput.reportedOf (input : RoundInput) (running : List Nat) : List (Nat × Report) :=
  (input.order.dedup.filter fun c => running.contains c).map fun c => (c, input.report c)

/-- `OnHttpResponse` accepts the response of the message, and the process survives
`SendRefresh`. -/
def Query.succeeds (platform : Platform) (config : Config) (message : Nat × Report) (q : Query) :
    Prop :=
  (q.verdict platform config message).1 = .ok true ∧
    (q.refresh platform config message).1 ≠ .error .undefined

instance (platform : Platform) (config : Config) (message : Nat × Report) (q : Query) :
    Decidable (q.succeeds platform config message) :=
  inferInstanceAs (Decidable (_ ∧ _))

/-- One message of the information queue: a request that is considered successful has its handle
removed. -/
def handleMessageOn (platform : Platform) (config : Config) (message : Nat × Report)
    (q : Query × Multi) : Except Fault Unit × (Query × Multi) :=
  let r := handleMessage platform config message q.1
  let multi := q.2.read q.1.pending message.1
  (r.1, (r.2, if q.1.succeeds platform config message then multi.remove message.1 else multi))

/-- The first `curl_multi_perform` of the round returns. -/
def RoundInput.performs (platform : Platform) (input : RoundInput) (p : State) : Bool :=
  Faults.succeeded (Faults.forEach (callback platform) input.first p)

/-- The requests of a round: every pending connection is prepared, and the transfers are
performed. -/
def requestOn (platform : Platform) (config : Config) (flags : QueryFlags) (t0 : Int)
    (input : RoundInput) (pending : List Nat) (p : State × Multi) :
    Except Fault Unit × (State × Multi) :=
  let prepared := pending.foldl (prepareOn platform config flags t0 input.easyInit) p
  let r := transfers platform input pending.length prepared.1
  (r.1, (r.2, if input.performs platform prepared.1 then prepared.2.count pending
    else prepared.2))

def queryRoundOn (platform : Platform) (config : Config) (flags : QueryFlags) (t0 : Int)
    (input : RoundInput) (q : Query × Multi) : Except Fault Unit × (Query × Multi) :=
  match requestOn platform config flags t0 input q.1.pending (q.1.state, q.2) with
  | (.error e, p) => (.error e, ({ q.1 with state := p.1 }, p.2))
  | (.ok (), p) =>
    Faults.forEach (handleMessageOn platform config) (input.reportedOf p.2.running)
      ({ q.1 with state := p.1, engineVersion := [] }, p.2)

/-! ## The query -/

def queryRoundsOn (platform : Platform) (config : Config) (flags : QueryFlags) (t0 : Int)
    (inputs : Nat → RoundInput) :
    Nat → Int → Nat → Query × Multi → Except Fault Unit × (Query × Multi)
  | retries, sleep, n, q =>
    match queryRoundOn platform config flags t0 (inputs n) q with
    | (.error e, q) => (.error e, q)
    | (.ok (), q) =>
      if q.1.pending.isEmpty then (.ok (), q)
      else
        match retries with
        | 0 => (.ok (), (q.1.abortTransfer, q.2))
        | retries + 1 =>
          if inTime config t0 (inputs n).clock then
            queryRoundsOn platform config flags t0 inputs retries (nextSleep config sleep) (n + 1)
              (q.1.observe (.sleep sleep), q.2)
          else (.ok (), (q.1.abortTransfer, q.2))

/-- `handle.reset ()`. -/
def closeHandle (p : State × Multi) (c : Nat) : State × Multi :=
  if (p.1.connections c).handle then
    (p.1.setConnection c { p.1.connections c with handle := false }, p.2.close c)
  else p

/-- `httpPsychQuery` on the connections `own`. -/
def httpPsychQueryOn (platform : Platform) (config : Config) (flags : QueryFlags)
    (input : QueryInput) (own : List Nat) (p : State × Multi) :
    Except Fault Unit × (State × Multi) :=
  match queryRoundsOn platform config flags input.t0 input.rounds (atol config.retryCount).toNat
      (firstSleep config) 0 ({ state := p.1, pending := own }, p.2) with
  | (.error e, q) => (.error e, (q.1.state, q.2))
  | (.ok (), q) =>
    let p := own.foldl closeHandle (q.1.state, q.2)
    (.ok (), (p.1.recordTime (input.t1 - input.t0), p.2))

/-! ## Membership -/

@[simp]
theorem Multi.mem_attached_detach {c c' : Nat} {op : HandleOp} {multi : Multi} :
    c' ∈ (multi.detach c op).attached ↔ c' ∈ multi.attached ∧ c' ≠ c := by
  simp [Multi.detach]

@[simp]
theorem Multi.mem_running_detach {c c' : Nat} {op : HandleOp} {multi : Multi} :
    c' ∈ (multi.detach c op).running ↔ c' ∈ multi.running ∧ c' ≠ c := by
  simp [Multi.detach]

@[simp]
theorem Multi.mem_running_read {pending : List Nat} {c c' : Nat} {multi : Multi} :
    c' ∈ (multi.read pending c).running ↔ c' ∈ multi.running ∧ c' ≠ c := by
  simp [Multi.read]

/-! ## Invariants -/

/-- A fact about how a step ended and what it left, which every step of a query on the
connections `own` keeps. -/
structure MultiInvariant (platform : Platform) (config : Config) (own : List Nat)
    (I : Except Fault Unit → State × Multi → Prop) : Prop where
  request : ∀ flags t0 input pending p, pending ⊆ own → I (.ok ()) p →
    I (requestOn platform config flags t0 input pending p).1
      (requestOn platform config flags t0 input pending p).2
  message : ∀ message q, message.1 ∈ q.2.running → I (.ok ()) (q.1.state, q.2) →
    I (handleMessageOn platform config message q).1
      ((handleMessageOn platform config message q).2.1.state,
        (handleMessageOn platform config message q).2.2)
  sleep : ∀ milliseconds p, I (.ok ()) p → I (.ok ()) (p.1.observe (.sleep milliseconds), p.2)
  exceeded : ∀ p, I (.ok ()) p →
    I (.ok ()) ((p.1.tally .httpRetriesExceeded 1).observe .retriesExceeded, p.2)
  close : ∀ r p c, I r p → I r (closeHandle p c)

variable {platform : Platform} {config : Config} {own : List Nat}
  {I : Except Fault Unit → State × Multi → Prop}

theorem MultiInvariant.and {I' : Except Fault Unit → State × Multi → Prop}
    (h : MultiInvariant platform config own I) (h' : MultiInvariant platform config own I') :
    MultiInvariant platform config own fun r p => I r p ∧ I' r p where
  request flags t0 input pending p hpending hp :=
    ⟨h.request flags t0 input pending p hpending hp.1,
      h'.request flags t0 input pending p hpending hp.2⟩
  message message q hc hq := ⟨h.message message q hc hq.1, h'.message message q hc hq.2⟩
  sleep milliseconds p hp := ⟨h.sleep milliseconds p hp.1, h'.sleep milliseconds p hp.2⟩
  exceeded p hp := ⟨h.exceeded p hp.1, h'.exceeded p hp.2⟩
  close r p c hp := ⟨h.close r p c hp.1, h'.close r p c hp.2⟩

theorem reportedOf_fst (input : RoundInput) (running : List Nat) :
    (input.reportedOf running).map Prod.fst =
      input.order.dedup.filter fun c => running.contains c := by
  unfold RoundInput.reportedOf
  rw [List.map_map]
  exact List.map_id _

theorem reportedOf_nodup (input : RoundInput) (running : List Nat) :
    ((input.reportedOf running).map Prod.fst).Nodup := by
  rw [reportedOf_fst]
  exact (List.nodup_dedup _).filter _

theorem mem_running_of_reportedOf {input : RoundInput} {running : List Nat}
    {message : Nat × Report} (h : message ∈ input.reportedOf running) : message.1 ∈ running := by
  have hmem := List.mem_map_of_mem (f := Prod.fst) h
  rw [reportedOf_fst, List.mem_filter, List.contains_iff_mem] at hmem
  exact hmem.2

/-- A message is about its own transfer alone. -/
theorem mem_running_handleMessageOn (message : Nat × Report) (q : Query × Multi) (c : Nat) :
    c ∈ (handleMessageOn platform config message q).2.2.running ↔
      c ∈ q.2.running ∧ c ≠ message.1 := by
  unfold handleMessageOn
  dsimp only
  split
  · rw [Multi.remove, Multi.mem_running_detach, Multi.mem_running_read]
    simp
  · exact Multi.mem_running_read

/-- The next message is about a transfer that has not been reported. -/
theorem mem_running_of_head {input : RoundInput} {running left : List Nat}
    {pre post : List (Nat × Report)} {message : Nat × Report}
    (hsplit : input.reportedOf running = pre ++ message :: post)
    (hleft : ∀ c, c ∈ left ↔ c ∈ running ∧ c ∉ pre.map Prod.fst) : message.1 ∈ left := by
  refine (hleft message.1).mpr ⟨@mem_running_of_reportedOf input _ _ ?_, fun hpre => ?_⟩
  · rw [hsplit]
    simp
  · have hnodup := reportedOf_nodup input running
    rw [hsplit, List.map_append, List.map_cons, List.nodup_append] at hnodup
    exact hnodup.2.2 message.1 hpre message.1 List.mem_cons_self rfl

/-- The messages of a round: each is about a transfer that has not been reported. -/
theorem messagesOn_invariant (h : MultiInvariant platform config own I) (input : RoundInput)
    {q : Query × Multi} (hq : I (.ok ()) (q.1.state, q.2)) :
    let r := Faults.forEach (handleMessageOn platform config) (input.reportedOf q.2.running) q
    I r.1 (r.2.1.state, r.2.2) := by
  have hrun := Faults.forEach_prefix (f := handleMessageOn platform config)
    (l := input.reportedOf q.2.running) (s := q)
    (I := fun pre q' => I (.ok ()) (q'.1.state, q'.2) ∧
      ∀ c, c ∈ q'.2.running ↔ c ∈ q.2.running ∧ c ∉ pre.map Prod.fst)
    (F := fun e q' => I (.error e) (q'.1.state, q'.2))
    (fun pre message post q' hsplit hI hok => by
      have hmem := @mem_running_of_head input _ _ _ _ _ hsplit hI.2
      have hkeep := h.message message q' hmem hI.1
      rw [hok] at hkeep
      refine ⟨hkeep, fun c => ?_⟩
      rw [mem_running_handleMessageOn, hI.2 c, List.map_append, List.mem_append, and_assoc]
      simp [not_or])
    (fun pre message post q' e hsplit hI he => by
      have hkeep := h.message message q' (@mem_running_of_head input _ _ _ _ _ hsplit hI.2) hI.1
      rwa [he] at hkeep)
    ⟨hq, by simp⟩
  intro r
  rcases hrun with ⟨hok, hI, _⟩ | ⟨e, he, hI⟩
  · change I (Faults.forEach _ _ _).1 _
    rw [hok]
    exact hI
  · change I (Faults.forEach _ _ _).1 _
    rw [he]
    exact hI

/-- What preparing a connection and the transfers keep, the requests of a round keep. -/
theorem requestOn_invariant {J : State × Multi → Prop} {flags : QueryFlags} {t0 : Int}
    {input : RoundInput} {pending : List Nat}
    (hprepare : ∀ p, ∀ c ∈ pending, J p →
      J (prepareOn platform config flags t0 input.easyInit p c))
    (htransfers : ∀ p, J p → J ((transfers platform input pending.length p.1).2,
      if input.performs platform p.1 then p.2.count pending else p.2))
    {p : State × Multi} (hp : J p) :
    J (requestOn platform config flags t0 input pending p).2 := by
  have hprepared : ∀ (l : List Nat) (p : State × Multi), l ⊆ pending → J p →
      J (l.foldl (prepareOn platform config flags t0 input.easyInit) p) := by
    intro l
    induction l with
    | nil => exact fun _ _ hp => hp
    | cons c l ih =>
      intro p hl hp
      rw [List.cons_subset] at hl
      exact ih _ hl.2 (hprepare p c hl.1 hp)
  exact htransfers _ (hprepared pending p (List.Subset.refl _) hp)

theorem queryRoundOn_invariant (h : MultiInvariant platform config own I) (flags : QueryFlags)
    (t0 : Int) (input : RoundInput) {q : Query × Multi} (hown : q.1.pending ⊆ own)
    (hq : I (.ok ()) (q.1.state, q.2)) :
    I (queryRoundOn platform config flags t0 input q).1
      ((queryRoundOn platform config flags t0 input q).2.1.state,
        (queryRoundOn platform config flags t0 input q).2.2) := by
  have hrequest := h.request flags t0 input q.1.pending (q.1.state, q.2) hown hq
  unfold queryRoundOn
  cases hr : requestOn platform config flags t0 input q.1.pending (q.1.state, q.2) with
  | mk r p =>
    rw [hr] at hrequest
    cases r with
    | error e => exact hrequest
    | ok _ =>
      exact messagesOn_invariant h input
        (q := ({ q.1 with state := p.1, engineVersion := [] }, p.2)) hrequest

/-- A message leaves no more pending than there were. -/
theorem handleMessage_pending (message : Nat × Report) (q : Query) :
    (handleMessage platform config message q).2.pending ⊆ q.pending := by
  rcases @handleMessage_cases platform config message q with
    ⟨_, _, _, _, _, hpending⟩ | ⟨_, _, _, _, hpending⟩ | ⟨_, _, _, _, _, hpending⟩ |
    ⟨_, _, _, _, _, _, hpending⟩
  · rw [hpending]
    exact List.Subset.refl _
  · rw [hpending]
    exact List.Subset.refl _
  · rw [hpending]
    exact List.Subset.refl _
  · rw [hpending]
    exact List.erase_subset

theorem queryRoundOn_pending (platform : Platform) (config : Config) (flags : QueryFlags)
    (t0 : Int) (input : RoundInput) (q : Query × Multi) :
    (queryRoundOn platform config flags t0 input q).2.1.pending ⊆ q.1.pending := by
  unfold queryRoundOn
  dsimp only
  split
  · exact List.Subset.refl _
  · exact Faults.forEach_invariant (fun q' : Query × Multi => q'.1.pending ⊆ q.1.pending)
      (fun message _ q' hq' => List.Subset.trans (handleMessage_pending message q'.1) hq')
      (List.Subset.refl _)

theorem queryRoundsOn_cases (platform : Platform) (config : Config) (flags : QueryFlags) (t0 : Int)
    (inputs : Nat → RoundInput) (retries : Nat) (sleep : Int) (n : Nat) (q : Query × Multi) :
    let r := queryRoundOn platform config flags t0 (inputs n) q
    let loop := queryRoundsOn platform config flags t0 inputs
    (loop retries sleep n q = r ∧ (r.1 = .ok () → r.2.1.pending = [])) ∨
    (r.1 = .ok () ∧ r.2.1.pending ≠ [] ∧
      loop retries sleep n q = (.ok (), (r.2.1.abortTransfer, r.2.2))) ∨
    (r.1 = .ok () ∧ r.2.1.pending ≠ [] ∧ ∃ left, retries = left + 1 ∧ loop retries sleep n q =
      loop left (nextSleep config sleep) (n + 1) (r.2.1.observe (.sleep sleep), r.2.2)) := by
  have hloop := queryRoundsOn.eq_def platform config flags t0 inputs retries sleep n q
  dsimp only at hloop ⊢
  cases hr : queryRoundOn platform config flags t0 (inputs n) q with
  | mk r q' =>
    rw [hr] at hloop
    cases r with
    | error e => exact Or.inl ⟨hloop, fun h => by cases h⟩
    | ok _ =>
      dsimp only at hloop
      by_cases hempty : q'.1.pending = []
      · rw [if_pos (by rw [hempty]; rfl)] at hloop
        exact Or.inl ⟨hloop, fun _ => hempty⟩
      · rw [if_neg (by rw [List.isEmpty_iff]; exact hempty)] at hloop
        right
        cases retries with
        | zero => exact Or.inl ⟨rfl, hempty, hloop⟩
        | succ retries =>
          dsimp only at hloop
          split at hloop
          · exact Or.inr ⟨rfl, hempty, retries, rfl, hloop⟩
          · exact Or.inl ⟨rfl, hempty, hloop⟩

theorem queryRoundsOn_invariant (h : MultiInvariant platform config own I) (flags : QueryFlags)
    (t0 : Int) (inputs : Nat → RoundInput) (retries : Nat) (sleep : Int) (n : Nat)
    {q : Query × Multi} (hown : q.1.pending ⊆ own) (hq : I (.ok ()) (q.1.state, q.2)) :
    I (queryRoundsOn platform config flags t0 inputs retries sleep n q).1
      ((queryRoundsOn platform config flags t0 inputs retries sleep n q).2.1.state,
        (queryRoundsOn platform config flags t0 inputs retries sleep n q).2.2) := by
  induction retries using Nat.strong_induction_on generalizing sleep n q with
  | _ retries ih =>
    have hround := queryRoundOn_invariant h flags t0 (inputs n) hown hq
    have hpending := queryRoundOn_pending platform config flags t0 (inputs n) q
    rcases queryRoundsOn_cases platform config flags t0 inputs retries sleep n q with
      ⟨heq, _⟩ | ⟨hok, _, heq⟩ | ⟨hok, _, left, hleft, heq⟩
    · rw [heq]
      exact hround
    · rw [heq]
      rw [hok] at hround
      exact h.exceeded _ hround
    · rw [heq]
      rw [hok] at hround
      exact ih left (by omega) _ _ (List.Subset.trans hpending hown) (h.sleep sleep _ hround)

theorem closeHandle_invariant (h : MultiInvariant platform config own I) (held : List Nat)
    {r : Except Fault Unit} {p : State × Multi} (hp : I r p) :
    I r (held.foldl closeHandle p) := by
  induction held generalizing p with
  | nil => exact hp
  | cons c held ih => exact ih (h.close r p c hp)

/-- What every step of a query keeps, every query keeps. -/
theorem httpPsychQueryOn_invariant (h : MultiInvariant platform config own I)
    (htime : ∀ td p, I (.ok ()) p → I (.ok ()) (p.1.recordTime td, p.2)) (flags : QueryFlags)
    (input : QueryInput) {p : State × Multi} (hp : I (.ok ()) p) :
    I (httpPsychQueryOn platform config flags input own p).1
      (httpPsychQueryOn platform config flags input own p).2 := by
  have hrounds := queryRoundsOn_invariant h flags input.t0 input.rounds
    (atol config.retryCount).toNat (firstSleep config) 0
    (q := ({ state := p.1, pending := own }, p.2)) (List.Subset.refl own) hp
  unfold httpPsychQueryOn
  cases hr : queryRoundsOn platform config flags input.t0 input.rounds
      (atol config.retryCount).toNat (firstSleep config) 0
      ({ state := p.1, pending := own }, p.2) with
  | mk r q =>
    rw [hr] at hrounds
    cases r with
    | error e => exact hrounds
    | ok _ => exact htime _ _ (closeHandle_invariant h own hrounds)

end Psych
