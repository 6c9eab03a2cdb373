import Psych.Query.Emissions

/-!
# The log of a round

A round that ended without a fault has added requests, then headers, then the entries of
its messages (`queryRound_log`). Each connection has at most one response in it, and the
accepted ones are exactly those that are no longer pending (`RoundDone`).
-/

namespace Psych

variable {platform : Platform} {config : Config}

/-! ## The last outcome of a connection -/

/-- The last transfer of a connection, and the connection when its response was looked at. -/
def lastDone (c : Nat) : List Obs → Option (Transfer × Connection)
  | [] => none
  | .done c' transfer connection _ :: log =>
    if c' = c then some (transfer, connection) else lastDone c log
  | _ :: log => lastDone c log

theorem lastDone_mem {c : Nat} {log : List Obs} {done : Transfer × Connection}
    (h : lastDone c log = some done) : ∃ lastFiletime, .done c done.1 done.2 lastFiletime ∈ log := by
  induction log with
  | nil => cases h
  | cons o log ih =>
    cases o with
    | done c' transfer connection lastFiletime =>
      rw [lastDone] at h
      split at h
      · rename_i hc
        cases h
        exact ⟨lastFiletime, by simp [hc]⟩
      · obtain ⟨f, hf⟩ := ih h
        exact ⟨f, List.mem_cons_of_mem _ hf⟩
    | request | header | refresh | accept | sleep | retriesExceeded =>
      obtain ⟨f, hf⟩ := ih h
      exact ⟨f, List.mem_cons_of_mem _ hf⟩

theorem lastDone_append (c : Nat) (new old : List Obs) :
    lastDone c (new ++ old) = (lastDone c new).or (lastDone c old) := by
  induction new with
  | nil => rfl
  | cons o new ih =>
    cases o with
    | done c' transfer connection lastFiletime =>
      rw [List.cons_append, lastDone, lastDone]
      split
      · rfl
      · exact ih
    | request | header | refresh | accept | sleep | retriesExceeded => exact ih

/-! ## The entries of a round -/

theorem prepare_log (platform : Platform) (config : Config) (flags : QueryFlags) (t0 : Int)
    (easyInit : Nat → Bool) (pending : List Nat) (p : State) : ∃ new,
      (pending.foldl (prepare platform config flags t0 easyInit) p).log = new ++ p.log ∧
      (∀ o ∈ new, ∃ c ∈ pending, ∃ request, o = .request c request) ∧
      ∀ c ∈ pending, ∃ request, .request c request ∈ new := by
  induction pending generalizing p with
  | nil => exact ⟨[], rfl, by simp, by simp⟩
  | cons c pending ih =>
    obtain ⟨request, hrequest⟩ : ∃ request,
        (prepare platform config flags t0 easyInit p c).log = .request c request :: p.log := by
      unfold prepare
      dsimp only
      split <;> exact ⟨_, rfl⟩
    obtain ⟨new, hlog, hall, hcover⟩ := ih (prepare platform config flags t0 easyInit p c)
    refine ⟨new ++ [.request c request], ?_, fun o ho => ?_, fun c' hc' => ?_⟩
    · rw [List.foldl_cons, hlog, hrequest, List.append_assoc]
      rfl
    · rcases List.mem_append.mp ho with ho | ho
      · obtain ⟨c', hc', rest⟩ := hall o ho
        exact ⟨c', List.mem_cons_of_mem _ hc', rest⟩
      · exact ⟨c, List.mem_cons_self, request, List.mem_singleton.mp ho⟩
    · rcases List.mem_cons.mp hc' with rfl | hc'
      · exact ⟨request, by simp⟩
      · obtain ⟨request', hmem⟩ := hcover c' hc'
        exact ⟨request', List.mem_append_left _ hmem⟩

theorem transfers_log (platform : Platform) (input : RoundInput) (requests : Nat) (p : State) :
    ∃ new, (transfers platform input requests p).2.log = new ++ p.log ∧
      ∀ o ∈ new, ∃ c line, o = .header c line := by
  have h : Faults.Emits State.log (fun _ new => ∀ o ∈ new, ∃ c line, o = Obs.header c line) p
      (transfers platform input requests p) :=
    transfers_emits ⟨by simp, fun h h' o ho => (List.mem_append.mp ho).elim (h' o) (h o)⟩
      (by simp) input requests p
  exact h

/-- The transfers add no entry that is counted. -/
theorem transfers_countP {f : Obs → Bool} (hf : ∀ c line, f (.header c line) = false)
    (input : RoundInput) (requests : Nat) (p : State) :
    (transfers platform input requests p).2.log.countP f = p.log.countP f := by
  obtain ⟨new, hlog, hnew⟩ := transfers_log platform input requests p
  have hnone : new.countP f = 0 := by
    refine List.countP_eq_zero.mpr fun o ho => ?_
    obtain ⟨c, line, rfl⟩ := hnew o ho
    rw [hf]
    simp
  rw [hlog, List.countP_append, hnone, Nat.zero_add]

/-- What the messages gone through have left in the log since `base`. -/
structure MessagesDone (platform : Platform) (config : Config) (pending : List Nat)
    (base : List Obs) (pre : List (Nat × Report)) (q : Query) (new : List Obs) : Prop where
  log : q.state.log = new ++ base
  response : ∀ o ∈ new, o.ofResponse
  done : ∀ {c transfer connection lastFiletime},
    .done c transfer connection lastFiletime ∈ new →
      c ∈ pre.map Prod.fst ∧ lastDone c new = some (transfer, connection)
  accepted : ∀ {c}, (∃ transfer, .accept c transfer ∈ new) ↔
    ∃ done, lastDone c new = some done ∧ accepts platform config done.1 done.2
  pending : ∀ {c}, c ∈ q.pending ↔ c ∈ pending ∧ ∀ transfer, .accept c transfer ∉ new
  nodup : q.pending.Nodup

variable {pending : List Nat} {base : List Obs} {pre : List (Nat × Report)}
  {message : Nat × Report} {q : Query} {r : Except Fault Unit × Query} {new : List Obs}

theorem MessagesDone.not_done (h : MessagesDone platform config pending base pre q new)
    (hnew : message.1 ∉ pre.map Prod.fst) : lastDone message.1 new = none := by
  cases hlast : lastDone message.1 new with
  | none => rfl
  | some done =>
    obtain ⟨f, hf⟩ := lastDone_mem hlast
    exact absurd (h.done hf).1 hnew

/-- A message whose response is not accepted. -/
theorem MessagesDone.reject (h : MessagesDone platform config pending base pre q new)
    (hnew : message.1 ∉ pre.map Prod.fst)
    (hno : ¬ accepts platform config message.2.transfer (q.state.connections message.1))
    (hlog : r.2.state.log = q.doneObs platform config message :: q.state.log)
    (hpending : r.2.pending = q.pending) :
    MessagesDone platform config pending base (pre ++ [message]) r.2
      (q.doneObs platform config message :: new) := by
  have hnone := h.not_done hnew
  have hlast : ∀ c, lastDone c (q.doneObs platform config message :: new) =
      if message.1 = c then some (message.2.transfer, q.state.connections message.1)
      else lastDone c new := fun c => rfl
  refine ⟨by rw [hlog, h.log]; rfl, fun o ho => ?_, fun {c t conn f} hmem => ?_, fun {c} => ?_,
    fun {c} => ?_, hpending ▸ h.nodup⟩
  · rcases List.mem_cons.mp ho with rfl | ho
    · trivial
    · exact h.response o ho
  · rw [List.map_append, List.mem_append]
    rcases List.mem_cons.mp hmem with heq | hmem
    · cases heq
      exact ⟨Or.inr (by simp), by rw [hlast, if_pos rfl]⟩
    · obtain ⟨hpre, hdone⟩ := h.done hmem
      refine ⟨Or.inl hpre, ?_⟩
      rw [hlast, if_neg (fun heq : message.1 = c => hnew (heq ▸ hpre))]
      exact hdone
  · rw [hlast]
    have hold : (∃ transfer, Obs.accept c transfer ∈ q.doneObs platform config message :: new) ↔
        ∃ transfer, Obs.accept c transfer ∈ new := by simp [Query.doneObs]
    rw [hold, h.accepted]
    by_cases hc : message.1 = c
    · subst hc
      rw [if_pos rfl, hnone]
      apply iff_of_false (by simp)
      rintro ⟨done, heq, hacc⟩
      cases heq
      exact hno hacc
    · rw [if_neg hc]
  · rw [hpending, h.pending]
    simp [Query.doneObs]

/-- A message whose response is accepted. -/
theorem MessagesDone.accept (h : MessagesDone platform config pending base pre q new)
    (hnew : message.1 ∉ pre.map Prod.fst)
    (hyes : accepts platform config message.2.transfer (q.state.connections message.1))
    (hlog : r.2.state.log = .accept message.1 message.2.transfer ::
      q.refreshObs platform config message :: q.doneObs platform config message :: q.state.log)
    (hpending : r.2.pending = q.pending.erase message.1) :
    MessagesDone platform config pending base (pre ++ [message]) r.2
      (.accept message.1 message.2.transfer :: q.refreshObs platform config message ::
        q.doneObs platform config message :: new) := by
  have hlast : ∀ c, lastDone c (.accept message.1 message.2.transfer ::
      q.refreshObs platform config message :: q.doneObs platform config message :: new) =
      if message.1 = c then some (message.2.transfer, q.state.connections message.1)
      else lastDone c new := fun c => rfl
  have haccept : ∀ c, (∃ transfer, Obs.accept c transfer ∈ .accept message.1 message.2.transfer ::
      q.refreshObs platform config message :: q.doneObs platform config message :: new) ↔
        c = message.1 ∨ ∃ transfer, Obs.accept c transfer ∈ new := by
    intro c
    simp only [Query.refreshObs, Query.doneObs, List.mem_cons, Obs.accept.injEq, reduceCtorEq,
      false_or, exists_or]
    exact or_congr_left ⟨fun ⟨_, hc, _⟩ => hc, fun hc => ⟨_, hc, rfl⟩⟩
  refine ⟨by rw [hlog, h.log]; rfl, fun o ho => ?_, fun {c t conn f} hmem => ?_, fun {c} => ?_,
    fun {c} => ?_, hpending ▸ h.nodup.erase _⟩
  · rcases List.mem_cons.mp ho with rfl | ho
    · trivial
    · rcases List.mem_cons.mp ho with rfl | ho
      · trivial
      · rcases List.mem_cons.mp ho with rfl | ho
        · trivial
        · exact h.response o ho
  · rw [List.map_append, List.mem_append]
    simp only [Query.refreshObs, List.mem_cons, reduceCtorEq, false_or] at hmem
    rcases hmem with heq | hmem
    · cases heq
      exact ⟨Or.inr (by simp), by rw [hlast, if_pos rfl]⟩
    · obtain ⟨hpre, hdone⟩ := h.done hmem
      refine ⟨Or.inl hpre, ?_⟩
      rw [hlast, if_neg (fun heq : message.1 = c => hnew (heq ▸ hpre))]
      exact hdone
  · rw [haccept, hlast, h.accepted]
    by_cases hc : message.1 = c
    · rw [if_pos hc]
      exact iff_of_true (Or.inl hc.symm) ⟨_, rfl, hyes⟩
    · rw [if_neg hc, or_iff_right (fun heq => hc heq.symm)]
  · have hnone := haccept c
    rw [hpending, h.nodup.mem_erase_iff, h.pending, ← not_exists, ← not_exists, hnone, not_or]
    tauto

/-- A message that ends the round leaves only entries of responses. -/
theorem MessagesDone.fault (h : MessagesDone platform config pending base pre q new) {e : Fault}
    (hr : Handled platform config message q r) (he : r.1 = .error e) :
    ∃ new', r.2.state.log = new' ++ base ∧ ∀ o ∈ new', o.ofResponse := by
  cases hr with
  | faulted _ _ _ hlog =>
    refine ⟨q.doneObs platform config message :: new, by rw [hlog, h.log]; rfl, ?_⟩
    exact List.forall_mem_cons.mpr ⟨trivial, h.response⟩
  | rejected _ hok => rw [hok] at he; cases he
  | undefined _ _ _ hlog =>
    refine ⟨q.refreshObs platform config message :: q.doneObs platform config message :: new,
      by rw [hlog, h.log]; rfl, ?_⟩
    exact List.forall_mem_cons.mpr ⟨trivial, List.forall_mem_cons.mpr ⟨trivial, h.response⟩⟩
  | accepted _ _ _ hok => rw [hok] at he; cases he

theorem MessagesDone.step (h : MessagesDone platform config pending base pre q new)
    (hnew : message.1 ∉ pre.map Prod.fst) (hr : Handled platform config message q r)
    (hok : r.1 = .ok ()) :
    ∃ new', MessagesDone platform config pending base (pre ++ [message]) r.2 new' := by
  have haccepts := respond_accepts_iff platform config message.2.transfer
    (q.state.connections message.1) q.state.stats q.engineVersion
  cases hr with
  | faulted _ _ he => rw [he] at hok; cases hok
  | rejected verdict _ hlog _ hpending =>
    refine ⟨_, h.reject hnew (fun hyes => ?_) hlog hpending⟩
    have htrue : (q.verdict platform config message).1 = .ok true := haccepts.mpr hyes
    rw [verdict] at htrue
    cases htrue
  | undefined _ _ he => rw [he] at hok; cases hok
  | accepted verdict _ _ _ hlog _ hpending =>
    exact ⟨_, h.accept hnew (haccepts.mp verdict) hlog hpending⟩

/-! ## A round -/

/-- An entry that a round leaves before the messages. -/
def Obs.beforeMessages : Obs → Prop
  | .request .. | .header .. => True
  | _ => False

/-- The entries of a round: requests first, then those of headers and responses. -/
structure RoundLog (q : Query) (top requests : List Obs) : Prop where
  afterRequests : ∀ o ∈ top, o.ofResponse ∨ ∃ c line, o = .header c line
  onlyPending : ∀ o ∈ requests, ∃ c ∈ q.pending, ∃ request, o = .request c request
  allPending : ∀ c ∈ q.pending, ∃ request, .request c request ∈ requests

/-- What a round leaves that ended without a fault. -/
structure RoundDone (platform : Platform) (config : Config) (pending : List Nat) (q' : Query)
    (new : List Obs) : Prop where
  done : ∀ {c transfer connection lastFiletime},
    .done c transfer connection lastFiletime ∈ new →
      c ∈ pending ∧ lastDone c new = some (transfer, connection)
  accepted : ∀ {c}, (∃ transfer, .accept c transfer ∈ new) ↔
    ∃ done, lastDone c new = some done ∧ accepts platform config done.1 done.2
  remaining : ∀ {c}, c ∈ q'.pending ↔ c ∈ pending ∧ ∀ transfer, .accept c transfer ∉ new
  nodup : q'.pending.Nodup

theorem lastDone_eq_none {c : Nat} {log : List Obs} (h : ∀ o ∈ log, o.beforeMessages) :
    lastDone c log = none := by
  cases hlast : lastDone c log with
  | none => rfl
  | some done =>
    obtain ⟨f, hf⟩ := lastDone_mem hlast
    exact (h _ hf).elim

/-- The messages of a round decide what the round leaves. -/
theorem MessagesDone.round {q' : Query} {messages : List (Nat × Report)} {rest : List Obs}
    (h : MessagesDone platform config pending base messages q' new)
    (hmessages : ∀ message ∈ messages, message.1 ∈ pending)
    (hrest : ∀ o ∈ rest, o.beforeMessages) :
    RoundDone platform config pending q' (new ++ rest) := by
  have hmem : ∀ {o : Obs}, ¬ o.beforeMessages → (o ∈ new ++ rest ↔ o ∈ new) := by
    intro o ho
    rw [List.mem_append]
    exact or_iff_left fun hin => ho (hrest o hin)
  have hlast : ∀ c, lastDone c (new ++ rest) = lastDone c new := by
    intro c
    rw [lastDone_append, lastDone_eq_none hrest, Option.or_none]
  refine ⟨fun {c t conn f} hdone => ?_, fun {c} => ?_, fun {c} => ?_, h.nodup⟩
  · rw [hmem (by simp [Obs.beforeMessages])] at hdone
    obtain ⟨hpre, heq⟩ := h.done hdone
    obtain ⟨message, hm, rfl⟩ := List.mem_map.mp hpre
    exact ⟨hmessages message hm, by rw [hlast]; exact heq⟩
  · rw [hlast]
    exact (exists_congr fun t => hmem (by simp [Obs.beforeMessages])).trans h.accepted
  · rw [h.pending]
    exact and_congr_right fun _ => forall_congr' fun t =>
      not_congr (hmem (by simp [Obs.beforeMessages])).symm

theorem messages_log (platform : Platform) (config : Config)
    {messages : List (Nat × Report)} (hids : (messages.map Prod.fst).Nodup)
    (q : Query) (hnodup : q.pending.Nodup) : ∃ new,
      (Faults.forEach (handleMessage platform config) messages q).2.state.log =
        new ++ q.state.log ∧
      (∀ o ∈ new, o.ofResponse) ∧
      ((Faults.forEach (handleMessage platform config) messages q).1 = .ok () →
        MessagesDone platform config q.pending q.state.log messages
          (Faults.forEach (handleMessage platform config) messages q).2 new) := by
  have hhead : ∀ {pre message post}, messages = pre ++ message :: post →
      message.1 ∉ pre.map Prod.fst := by
    intro pre message post hsplit hmem
    rw [hsplit, List.map_append, List.map_cons, List.nodup_append] at hids
    exact hids.2.2 message.1 hmem message.1 List.mem_cons_self rfl
  have hrun := Faults.forEach_prefix (f := handleMessage platform config) (l := messages)
    (I := fun pre q' => ∃ new,
      MessagesDone platform config q.pending q.state.log pre q' new)
    (F := fun _ q' => ∃ new, q'.state.log = new ++ q.state.log ∧ ∀ o ∈ new, o.ofResponse)
    (fun _ message _ q' hsplit ⟨_, hI⟩ hok =>
      hI.step (hhead hsplit) (handleMessage_cases message q') hok)
    (fun _ message _ q' _ _ ⟨_, hI⟩ he => hI.fault (handleMessage_cases message q') he)
    (s := q) ⟨[], rfl, by simp, by simp, by simp [lastDone], by simp, hnodup⟩
  rcases hrun with ⟨_, new, hI⟩ | ⟨e, he, new, hlog, hresponse⟩
  · exact ⟨new, hI.log, hI.response, fun _ => hI⟩
  · refine ⟨new, hlog, hresponse, fun hok => ?_⟩
    rw [he] at hok
    cases hok

theorem queryRound_log (platform : Platform) (config : Config) (flags : QueryFlags) (t0 : Int)
    (input : RoundInput) (q : Query) (hnodup : q.pending.Nodup) :
    ∃ top requests, RoundLog q top requests ∧
      (queryRound platform config flags t0 input q).2.state.log =
        (top ++ requests) ++ q.state.log ∧
      ((queryRound platform config flags t0 input q).1 = .ok () →
        RoundDone platform config q.pending (queryRound platform config flags t0 input q).2
          (top ++ requests)) := by
  obtain ⟨requests, hprepared, hall, hcover⟩ := prepare_log platform
    config flags t0 input.easyInit q.pending q.state
  obtain ⟨headers, htransfers, hheaders⟩ := transfers_log platform input
    q.pending.length (q.pending.foldl (prepare platform config flags t0 input.easyInit) q.state)
  rw [hprepared] at htransfers
  have hrest : ∀ o ∈ headers ++ requests, o.beforeMessages := by
    intro o ho
    rcases List.mem_append.mp ho with ho | ho
    · obtain ⟨c, line, rfl⟩ := hheaders o ho
      trivial
    · obtain ⟨c, _, request, rfl⟩ := hall o ho
      trivial
  rcases queryRound_cases platform config flags t0 input q with ⟨e, _, heq⟩ | ⟨_, heq⟩
  · rw [heq]
    exact ⟨headers, requests, ⟨fun o ho => Or.inr (hheaders o ho), hall, hcover⟩,
      by rw [List.append_assoc]; exact htransfers, fun h => by cases h⟩
  · rw [heq]
    obtain ⟨new, hlog, hresponse, hdone⟩ := messages_log platform config
      (reported_nodup input q.pending)
      { q with
        state := (transfers platform input q.pending.length _).2
        engineVersion := [] } hnodup
    refine ⟨new ++ headers, requests, ⟨fun o ho => ?_, hall, hcover⟩, ?_, fun hok => ?_⟩
    · rcases List.mem_append.mp ho with ho | ho
      · exact Or.inl (hresponse o ho)
      · exact Or.inr (hheaders o ho)
    · rw [hlog, htransfers]
      simp only [List.append_assoc]
    · rw [List.append_assoc]
      exact (hdone hok).round (fun message hm => mem_reported hm) hrest

end Psych
