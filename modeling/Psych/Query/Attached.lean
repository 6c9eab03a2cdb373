import Psych.Query.Multi

/-!
# What the multi handle contains

The connections in the multi handle hold their easy handle, and no transfer is reported twice
(`Multi.Sound`), in every step of every query. On a multi handle that reports nothing else, a
query of the timer is the one of the other modules (`httpPsychQueryOn_eq`).
-/

namespace Psych

variable {platform : Platform} {config : Config}

/-! ## Handles and the multi handle -/

/-- The connections in the multi handle hold their handle, and none is reported twice. -/
structure Multi.Sound (p : State × Multi) : Prop where
  held : ∀ c ∈ p.2.attached, (p.1.connections c).handle = true
  running : ∀ c ∈ p.2.running, c ∈ p.2.attached
  nodup : p.2.running.Nodup

theorem Multi.Sound.congr {p : State × Multi} {state : State} (h : Multi.Sound p)
    (hstate : ∀ c, (state.connections c).handle = (p.1.connections c).handle) :
    Multi.Sound (state, p.2) :=
  ⟨fun c hc => (hstate c).trans (h.held c hc), h.running, h.nodup⟩

theorem Multi.Sound.detach {p : State × Multi} (h : Multi.Sound p) (c : Nat) (op : HandleOp) :
    Multi.Sound (p.1, p.2.detach c op) where
  held c' hc' := h.held c' (Multi.mem_attached_detach.mp hc').1
  running c' hc' := by
    obtain ⟨hrunning, hne⟩ := Multi.mem_running_detach.mp hc'
    exact Multi.mem_attached_detach.mpr ⟨h.running c' hrunning, hne⟩
  nodup := h.nodup.filter _

theorem Multi.Sound.read {p : State × Multi} (h : Multi.Sound p) (pending : List Nat) (c : Nat) :
    Multi.Sound (p.1, p.2.read pending c) where
  held := h.held
  running c' hc' := h.running c' (Multi.mem_running_read.mp hc').1
  nodup := h.nodup.filter _

theorem Multi.Sound.count {p : State × Multi} (h : Multi.Sound p) (pending : List Nat) :
    Multi.Sound (p.1, p.2.count pending) :=
  ⟨h.held, h.running, h.nodup⟩

theorem prepare_handle (platform : Platform) (config : Config) (flags : QueryFlags) (t0 : Int)
    (easyInit : Nat → Bool) (p : State) (c c' : Nat) :
    ((prepare platform config flags t0 easyInit p c).connections c').handle =
      if c' = c then easyInit c else (p.connections c').handle := by
  unfold prepare
  by_cases hc : c' = c <;> cases easyInit c <;> simp [State.observe, State.setConnection, hc]

theorem mem_attached_prepareOn {p : State × Multi} (h : Multi.Sound p) (flags : QueryFlags)
    (t0 : Int) (easyInit : Nat → Bool) (c c' : Nat) :
    c' ∈ (prepareOn platform config flags t0 easyInit p c).2.attached ↔
      (c' = c ∧ easyInit c = true) ∨ (c' ≠ c ∧ c' ∈ p.2.attached) := by
  have hclosed : c' ∈ (if (p.1.connections c).handle then p.2.close c else p.2).attached ↔
      c' ≠ c ∧ c' ∈ p.2.attached := by
    split
    · rw [Multi.close, Multi.mem_attached_detach, and_comm]
    · rename_i hhandle
      refine (and_iff_right_of_imp fun hmem => ?_).symm
      rintro rfl
      exact hhandle (h.held c' hmem)
  unfold prepareOn
  dsimp only
  cases easyInit c with
  | true =>
    rw [if_pos rfl, Multi.add, List.mem_cons, hclosed]
    simp
  | false =>
    rw [if_neg (by simp), hclosed]
    simp

theorem mem_running_prepareOn {p : State × Multi} (h : Multi.Sound p) (flags : QueryFlags)
    (t0 : Int) (easyInit : Nat → Bool) (c c' : Nat) :
    c' ∈ (prepareOn platform config flags t0 easyInit p c).2.running ↔
      (c' = c ∧ easyInit c = true) ∨ (c' ≠ c ∧ c' ∈ p.2.running) := by
  have hclosed : c' ∈ (if (p.1.connections c).handle then p.2.close c else p.2).running ↔
      c' ≠ c ∧ c' ∈ p.2.running := by
    split
    · rw [Multi.close, Multi.mem_running_detach, and_comm]
    · rename_i hhandle
      refine (and_iff_right_of_imp fun hmem => ?_).symm
      rintro rfl
      exact hhandle (h.held c' (h.running c' hmem))
  unfold prepareOn
  dsimp only
  cases easyInit c with
  | true =>
    rw [if_pos rfl, Multi.add, List.mem_cons, hclosed]
    simp
  | false =>
    rw [if_neg (by simp), hclosed]
    simp

theorem prepareOn_sound {p : State × Multi} (h : Multi.Sound p) (flags : QueryFlags) (t0 : Int)
    (easyInit : Nat → Bool) (c : Nat) :
    Multi.Sound (prepareOn platform config flags t0 easyInit p c) := by
  refine ⟨fun c' hc' => ?_, fun c' hc' => ?_, ?_⟩
  · change ((prepare platform config flags t0 easyInit p.1 c).connections c').handle = true
    rw [prepare_handle]
    rcases (mem_attached_prepareOn h flags t0 easyInit c c').mp hc' with ⟨rfl, hinit⟩ | ⟨hne, hmem⟩
    · rw [if_pos rfl, hinit]
    · rw [if_neg hne]
      exact h.held c' hmem
  · rw [mem_attached_prepareOn h]
    rcases (mem_running_prepareOn h flags t0 easyInit c c').mp hc' with hc | ⟨hne, hmem⟩
    · exact Or.inl hc
    · exact Or.inr ⟨hne, h.running c' hmem⟩
  · have hclosed : (if (p.1.connections c).handle then p.2.close c else p.2).running.Nodup ∧
        c ∉ (if (p.1.connections c).handle then p.2.close c else p.2).running := by
      split
      · exact ⟨h.nodup.filter _, fun hmem => (Multi.mem_running_detach.mp hmem).2 rfl⟩
      · rename_i hhandle
        exact ⟨h.nodup, fun hmem => hhandle (h.held c (h.running c hmem))⟩
    unfold prepareOn
    dsimp only
    split
    · exact List.nodup_cons.mpr ⟨hclosed.2, hclosed.1⟩
    · exact hclosed.1

/-! ## Handles in the course of a query -/

theorem callback_handle (call : Callback) (p : State) (c : Nat) :
    ((callback platform call p).2.connections c).handle = (p.connections c).handle := by
  have hset : ∀ (c' : Nat) (p : State) (connection : Connection),
      connection.handle = (p.connections c').handle →
        ((p.setConnection c' connection).connections c).handle = (p.connections c).handle := by
    intro c' p connection hconnection
    unfold State.setConnection
    dsimp only
    split
    · rename_i heq
      rw [heq, hconnection]
    · rfl
  cases call with
  | data c' chunk =>
    apply hset c' p _
    unfold onHttpData
    split <;> rfl
  | header c' line =>
    unfold callback
    rcases onHttpHeader_cases platform (p.connections c') line with
      ⟨_, httpd, heq⟩ | ⟨_, e, _, heq⟩
    · simp only [heq]
      exact hset c' _ _ rfl
    · simp only [heq]
      rfl

theorem transfers_handle (input : RoundInput) (requests : Nat) (p : State) (c : Nat) :
    ((transfers platform input requests p).2.connections c).handle = (p.connections c).handle :=
  transfers_rel (fun p p' : State => (p'.connections c).handle = (p.connections c).handle)
    (fun _ => rfl) (fun _ _ _ h h' => h'.trans h) (fun call p => callback_handle call p c)
    (fun _ _ => rfl) input requests p

theorem handleMessage_handle (message : Nat × Report) (q : Query) (c : Nat) :
    ((handleMessage platform config message q).2.state.connections c).handle =
      (q.state.connections c).handle := by
  rw [handleMessage_connections]
  dsimp only
  split
  · rename_i hc
    rw [hc]
    unfold Query.verdict
    by_cases hreach : reachesTable config message.2.transfer (q.state.connections message.1)
    · rw [(respond_of_reaches hreach platform _ _).2.1]
    · rw [(respond_of_not_reaches hreach platform _ _).2]
  · rfl

theorem transfers_sound {p : State × Multi} (h : Multi.Sound p) (input : RoundInput)
    (pending : List Nat) :
    Multi.Sound ((transfers platform input pending.length p.1).2,
      if input.performs platform p.1 then p.2.count pending else p.2) := by
  have hstate := h.congr (@transfers_handle platform input pending.length p.1)
  split
  · exact hstate.count pending
  · exact hstate

theorem closeHandle_sound {p : State × Multi} (h : Multi.Sound p) (c : Nat) :
    Multi.Sound (closeHandle p c) := by
  unfold closeHandle
  split
  · have hdetached := h.detach c (.close c (p.2.attached.contains c))
    refine ⟨fun c' hc' => ?_, hdetached.running, hdetached.nodup⟩
    have hc := Multi.mem_attached_detach.mp hc'
    simp only [State.setConnection, if_neg hc.2]
    exact h.held c' hc.1
  · exact h

theorem requestOn_sound {p : State × Multi} (h : Multi.Sound p) (flags : QueryFlags) (t0 : Int)
    (input : RoundInput) (pending : List Nat) :
    Multi.Sound (requestOn platform config flags t0 input pending p).2 :=
  requestOn_invariant (J := Multi.Sound)
    (fun _ c _ h => prepareOn_sound h flags t0 input.easyInit c)
    (fun _ h => transfers_sound h input pending) h

/-- The multi handle stays sound. -/
theorem multi_sound_invariant (platform : Platform) (config : Config) (own : List Nat) :
    MultiInvariant platform config own fun _ p => Multi.Sound p where
  request flags t0 input pending p _ h := requestOn_sound h flags t0 input pending
  message message q _ h := by
    have hstate := (h.congr (@handleMessage_handle platform config
      message q.1)).read q.1.pending message.1
    unfold handleMessageOn
    dsimp only
    split
    · exact hstate.detach message.1 _
    · exact hstate
  sleep _ _ h := h.congr fun _ => rfl
  exceeded _ h := h.congr fun _ => rfl
  close _ p c h := closeHandle_sound h c

theorem mem_attached_closeHandle {p : State × Multi} (h : Multi.Sound p) (c c' : Nat) :
    c' ∈ (closeHandle p c).2.attached ↔ c' ∈ p.2.attached ∧ c' ≠ c := by
  unfold closeHandle
  split
  · exact Multi.mem_attached_detach
  · rename_i hhandle
    refine (and_iff_left_of_imp fun hmem => ?_).symm
    rintro rfl
    exact hhandle (h.held c' hmem)

/-- Closed handles are no longer in the multi handle. -/
theorem mem_attached_foldl_closeHandle {p : State × Multi} (h : Multi.Sound p) (own : List Nat)
    (c : Nat) : c ∈ (own.foldl closeHandle p).2.attached ↔ c ∈ p.2.attached ∧ c ∉ own := by
  induction own generalizing p with
  | nil => simp
  | cons c' own ih =>
    rw [List.foldl_cons, ih (closeHandle_sound h c'), mem_attached_closeHandle h, List.mem_cons,
      not_or, and_assoc]

/-! ## What a query leaves alone -/

/-- The number of connections, the refresh times and the number of timer queries are the same. -/
structure SameTimes (p p' : State) : Prop where
  count : p'.count = p.count
  minRefreshTime : p'.minRefreshTime = p.minRefreshTime
  maxRefreshTime : p'.maxRefreshTime = p.maxRefreshTime
  totalRefreshTime : p'.totalRefreshTime = p.totalRefreshTime
  timerQueryReceived : p'.stats .timerQueryReceived = p.stats .timerQueryReceived

theorem SameTimes.refl (p : State) : SameTimes p p := ⟨rfl, rfl, rfl, rfl, rfl⟩

theorem SameTimes.trans {p p' p'' : State} (h : SameTimes p p') (h' : SameTimes p' p'') :
    SameTimes p p'' :=
  ⟨h'.count.trans h.count, h'.minRefreshTime.trans h.minRefreshTime,
    h'.maxRefreshTime.trans h.maxRefreshTime, h'.totalRefreshTime.trans h.totalRefreshTime,
    h'.timerQueryReceived.trans h.timerQueryReceived⟩

theorem tally_sameTimes {counter : Counter} (h : counter ≠ .timerQueryReceived) (n : Nat)
    (p : State) : SameTimes p (p.tally counter n) := by
  refine ⟨rfl, rfl, rfl, rfl, ?_⟩
  unfold State.tally Stats.add
  dsimp only
  rw [if_neg h.symm]

/-- The counters after a message: a response that is not accepted counts as malformed. -/
theorem handleMessage_stats (platform : Platform) (config : Config) (message : Nat × Report)
    (q : Query) :
    (handleMessage platform config message q).2.state.stats =
      if (q.verdict platform config message).1 = .ok false then
        (q.verdict platform config message).2.stats.add .httpMalformed 1
      else (q.verdict platform config message).2.stats := by
  unfold handleMessage Query.verdict
  dsimp only
  cases (respond platform config message.2.transfer (q.state.connections message.1)
      q.state.stats q.engineVersion).1 with
  | error e => rfl
  | ok accepted =>
    cases accepted with
    | false => rfl
    | true =>
      rw [if_neg (by simp)]
      dsimp only
      split
      · rename_i heq
        exact congrArg (fun r => r.2.state.stats) heq.symm
      · rename_i heq
        unfold Query.accept
        split <;> exact congrArg (fun r => r.2.state.stats) heq.symm

theorem handleMessage_state (platform : Platform) (config : Config) (message : Nat × Report)
    (q : Query) : ∃ connections provider stats log,
      (handleMessage platform config message q).2.state = { q.state with
        connections := connections, provider := provider, stats := stats, log := log } := by
  unfold handleMessage
  dsimp only
  cases (respond platform config message.2.transfer (q.state.connections message.1)
      q.state.stats q.engineVersion).1 with
  | error e => exact ⟨_, _, _, _, rfl⟩
  | ok accepted =>
    cases accepted with
    | false => exact ⟨_, _, _, _, rfl⟩
    | true =>
      dsimp only
      split
      · rename_i heq
        obtain ⟨_, rfl⟩ := Prod.mk.inj heq
        exact ⟨_, _, _, _, rfl⟩
      · rename_i heq
        obtain ⟨_, rfl⟩ := Prod.mk.inj heq
        unfold Query.accept
        split <;> exact ⟨_, _, _, _, rfl⟩

theorem handleMessage_sameTimes (message : Nat × Report) (q : Query) :
    SameTimes q.state (handleMessage platform config message q).2.state := by
  have hstats : (handleMessage platform config message q).2.state.stats .timerQueryReceived =
      q.state.stats .timerQueryReceived := by
    have hrespond := respond_stats platform config message.2.transfer
      (q.state.connections message.1) q.state.stats q.engineVersion
      (c := .timerQueryReceived) rfl
    have hzero : responseCount platform message.2.transfer .timerQueryReceived = 0 := by
      unfold responseCount statusCount statusClass statusOwn
      split_ifs <;> simp_all
    rw [hzero, BitVec.add_zero] at hrespond
    rw [handleMessage_stats, ← hrespond]
    split
    · unfold Stats.add
      rw [if_neg (by simp)]
      rfl
    · rfl
  obtain ⟨connections, provider, stats, log, heq⟩ :=
    handleMessage_state platform config message q
  rw [heq] at hstats ⊢
  exact ⟨rfl, rfl, rfl, rfl, hstats⟩

theorem callback_sameTimes (call : Callback) (p : State) :
    SameTimes p (callback platform call p).2 := by
  cases call with
  | data c chunk => exact ⟨rfl, rfl, rfl, rfl, rfl⟩
  | header c line =>
    unfold callback
    dsimp only
    split <;> exact ⟨rfl, rfl, rfl, rfl, rfl⟩

theorem transfers_sameTimes (input : RoundInput) (requests : Nat) (p : State) :
    SameTimes p (transfers platform input requests p).2 :=
  transfers_rel SameTimes .refl (fun _ _ _ h h' => h.trans h') callback_sameTimes
    (fun p requests => tally_sameTimes (by simp) requests p) input requests p

theorem prepare_sameTimes (flags : QueryFlags) (t0 : Int) (easyInit : Nat → Bool) (p : State)
    (c : Nat) : SameTimes p (prepare platform config flags t0 easyInit p c) := by
  unfold prepare
  dsimp only
  split <;> exact ⟨rfl, rfl, rfl, rfl, rfl⟩

/-- The rounds of a query leave the refresh times to its end. -/
theorem sameTimes_invariant (platform : Platform) (config : Config) (own : List Nat) (p₀ : State) :
    MultiInvariant platform config own fun _ p => SameTimes p₀ p.1 where
  request flags t0 input pending p _ h :=
    requestOn_invariant (J := fun p => SameTimes p₀ p.1)
      (fun p c _ h => h.trans (prepare_sameTimes flags t0 input.easyInit p.1 c))
      (fun p h => h.trans (transfers_sameTimes input _ p.1)) h
  message message q _ h := h.trans (handleMessage_sameTimes message q.1)
  sleep _ _ h := h.trans ⟨rfl, rfl, rfl, rfl, rfl⟩
  exceeded p h := by
    have htally := @tally_sameTimes .httpRetriesExceeded (by simp) 1 p.1
    exact h.trans (htally.trans ⟨rfl, rfl, rfl, rfl, rfl⟩)
  close _ p c h := by
    unfold closeHandle
    split
    · exact h.trans ⟨rfl, rfl, rfl, rfl, rfl⟩
    · exact h

/-! ## The query of the timer -/

theorem foldl_prepareOn_fst (flags : QueryFlags) (t0 : Int) (easyInit : Nat → Bool)
    (pending : List Nat) (p : State × Multi) :
    (pending.foldl (prepareOn platform config flags t0 easyInit) p).1 =
      pending.foldl (prepare platform config flags t0 easyInit) p.1 := by
  induction pending generalizing p with
  | nil => rfl
  | cons c pending ih => exact ih _

/-- After the first part of a round a pending connection is in the multi handle where it got an
easy handle. -/
theorem mem_running_foldl {p : State × Multi} (h : Multi.Sound p) (flags : QueryFlags) (t0 : Int)
    (easyInit : Nat → Bool) (pending : List Nat) (c : Nat) :
    c ∈ (pending.foldl (prepareOn platform config flags t0 easyInit) p).2.running ↔
      (c ∈ pending ∧ easyInit c = true) ∨ (c ∉ pending ∧ c ∈ p.2.running) := by
  induction pending generalizing p with
  | nil => simp
  | cons c' pending ih =>
    rw [List.foldl_cons, ih (prepareOn_sound h flags t0 easyInit c'), mem_running_prepareOn h,
      List.mem_cons, not_or]
    by_cases hc : c = c'
    · subst hc
      by_cases hmem : c ∈ pending <;> simp [hmem]
    · simp [hc]

/-- A message leaves the other connections pending. -/
theorem mem_pending_handleMessage (message : Nat × Report) {q : Query} {c : Nat}
    (hc : c ∈ q.pending) (hne : c ≠ message.1) :
    c ∈ (handleMessage platform config message q).2.pending := by
  rcases @handleMessage_cases platform config message q with
    ⟨_, _, _, _, _, hpending⟩ | ⟨_, _, _, _, hpending⟩ | ⟨_, _, _, _, _, hpending⟩ |
    ⟨_, _, _, _, _, _, hpending⟩
  · rw [hpending]
    exact hc
  · rw [hpending]
    exact hc
  · rw [hpending]
    exact hc
  · rw [hpending]
    exact (List.mem_erase_of_ne hne).mpr hc

/-- The requests of a round are those of `queryRound`. -/
theorem requestOn_eq (flags : QueryFlags) (t0 : Int) (input : RoundInput) (pending : List Nat)
    (p : State × Multi) :
    let r := transfers platform input pending.length
      (pending.foldl (prepare platform config flags t0 input.easyInit) p.1)
    requestOn platform config flags t0 input pending p =
      (r.1, (r.2, (requestOn platform config flags t0 input pending p).2.2)) := by
  unfold requestOn
  dsimp only
  rw [foldl_prepareOn_fst]

/-- After the requests of a round a pending connection is still to be reported where it got an
easy handle. -/
theorem mem_running_requestOn {p : State × Multi} (h : Multi.Sound p) (flags : QueryFlags)
    (t0 : Int) (input : RoundInput) (pending : List Nat) (c : Nat) :
    c ∈ (requestOn platform config flags t0 input pending p).2.2.running ↔
      (c ∈ pending ∧ input.easyInit c = true) ∨ (c ∉ pending ∧ c ∈ p.2.running) := by
  rw [← @mem_running_foldl platform config _ h flags t0 input.easyInit pending c]
  unfold requestOn
  dsimp only
  split <;> rfl

/-- Where the multi handle contains nothing but pending connections, the round is that of
`queryRound`. -/
theorem queryRoundOn_eq (flags : QueryFlags) (t0 : Int) (input : RoundInput) {q : Query × Multi}
    (hsound : Multi.Sound (q.1.state, q.2)) (hown : ∀ c ∈ q.2.running, c ∈ q.1.pending) :
    ∃ multi, queryRoundOn platform config flags t0 input q =
        ((queryRound platform config flags t0 input q.1).1,
          ((queryRound platform config flags t0 input q.1).2, multi)) ∧
      ((queryRound platform config flags t0 input q.1).1 = .ok () → ∀ c ∈ multi.running,
        c ∈ (queryRound platform config flags t0 input q.1).2.pending) := by
  have hmem : ∀ c, c ∈ (requestOn platform config flags t0 input q.1.pending
      (q.1.state, q.2)).2.2.running ↔ c ∈ q.1.pending ∧ input.easyInit c = true := by
    intro c
    rw [mem_running_requestOn hsound]
    exact or_iff_left_of_imp fun h => absurd (hown c h.2) h.1
  unfold queryRoundOn queryRound
  rw [requestOn_eq]
  generalize (requestOn platform config flags t0 input q.1.pending
    (q.1.state, q.2)).2.2 = multi at hmem ⊢
  dsimp only
  cases hr : transfers platform input q.1.pending.length
      (q.1.pending.foldl (prepare platform config flags t0 input.easyInit) q.1.state) with
  | mk r p =>
    cases r with
    | error e => exact ⟨multi, rfl, fun h => by cases h⟩
    | ok _ =>
      dsimp only
      have hreported : input.reportedOf multi.running = input.reported q.1.pending := by
        unfold RoundInput.reportedOf RoundInput.reported
        congr 1
        refine List.filter_congr fun c _ => ?_
        rw [Bool.eq_iff_iff, Bool.and_eq_true, List.contains_iff_mem, List.contains_iff_mem, hmem]
      rw [hreported]
      obtain ⟨hfst, hsnd, hleft⟩ := Faults.forEach_simulation
        (f := handleMessage platform config) (g := handleMessageOn platform config)
        (fun (q : Query) (q' : Query × Multi) => q'.1 = q ∧ ∀ c ∈ q'.2.running, c ∈ q.pending)
        (l := input.reported q.1.pending)
        (fun message _ q q' hR => by
          obtain ⟨rfl, hpending⟩ := hR
          refine ⟨rfl, rfl, fun c hc => ?_⟩
          obtain ⟨hc, hne⟩ := (mem_running_handleMessageOn message q' c).mp hc
          exact mem_pending_handleMessage message (hpending c hc) hne)
        (s := { q.1 with state := p, engineVersion := [] })
        (t := ({ q.1 with state := p, engineVersion := [] }, multi))
        ⟨rfl, fun c hc => ((hmem c).mp hc).1⟩
      refine ⟨_, Prod.ext hfst.symm (Prod.ext hsnd rfl), fun _ => hleft⟩

/-- The rounds of a query on a multi handle that contains nothing else. -/
theorem queryRoundsOn_eq (flags : QueryFlags) (t0 : Int) (inputs : Nat → RoundInput)
    (retries : Nat) (sleep : Int) (n : Nat) {q : Query × Multi}
    (hsound : Multi.Sound (q.1.state, q.2)) (hown : ∀ c ∈ q.2.running, c ∈ q.1.pending) :
    ∃ multi, queryRoundsOn platform config flags t0 inputs retries sleep n q =
      ((queryRounds platform config flags t0 inputs retries sleep n q.1).1,
        ((queryRounds platform config flags t0 inputs retries sleep n q.1).2, multi)) := by
  induction retries using Nat.strong_induction_on generalizing sleep n q with
  | _ retries ih =>
    obtain ⟨multi, hround, hpending⟩ := @queryRoundOn_eq platform config flags t0 (inputs n) _
      hsound hown
    have hsound' := queryRoundOn_invariant (multi_sound_invariant platform config q.1.pending)
      flags t0 (inputs n) (List.Subset.refl _) hsound
    rw [hround] at hsound'
    rw [queryRoundsOn.eq_def, queryRounds.eq_def]
    dsimp only
    rw [hround]
    cases hr : queryRound platform config flags t0 (inputs n) q.1 with
    | mk r q' =>
      rw [hr] at hpending hsound'
      cases r with
      | error e => exact ⟨multi, rfl⟩
      | ok _ =>
        dsimp only
        split
        · exact ⟨multi, rfl⟩
        · cases retries with
          | zero => exact ⟨multi, rfl⟩
          | succ retries =>
            dsimp only
            split
            · exact ih retries (by omega) _ _ (q := (q'.observe (.sleep sleep), multi))
                (hsound'.congr fun _ => rfl) (hpending rfl)
            · exact ⟨multi, rfl⟩

theorem foldl_closeHandle_fst (p : State × Multi) (own : List Nat) :
    (own.foldl closeHandle p).1 = { p.1 with
      connections := fun c =>
        if c ∈ own then { p.1.connections c with handle := false } else p.1.connections c } := by
  induction own generalizing p with
  | nil => simp
  | cons c own ih =>
    have hclose : (closeHandle p c).1 =
        p.1.setConnection c { p.1.connections c with handle := false } := by
      unfold closeHandle
      split
      · rfl
      · rename_i hhandle
        have hsame : { p.1.connections c with handle := false } = p.1.connections c := by
          cases hc : p.1.connections c
          rw [hc] at hhandle
          simp at hhandle
          rw [hhandle]
        rw [hsame]
        unfold State.setConnection
        have hconnections : (fun i => if i = c then p.1.connections c else p.1.connections i) =
            p.1.connections := by
          funext i
          split
          · rename_i hi
            rw [hi]
          · rfl
        rw [hconnections]
    rw [List.foldl_cons, ih, hclose]
    unfold State.setConnection
    dsimp only
    congr 1
    funext i
    by_cases hi : i = c <;> by_cases hmem : i ∈ own <;> simp [hi, hmem]

/-- A query of the timer, where the multi handle contains nothing but its connections. -/
theorem httpPsychQueryOn_eq (flags : QueryFlags) (input : QueryInput) {p : State × Multi}
    (hsound : Multi.Sound p) (hown : ∀ c ∈ p.2.running, c < p.1.count) :
    ∃ multi, httpPsychQueryOn platform config flags input (List.range p.1.count) p =
      ((httpPsychQuery platform config flags input p.1).1,
        ((httpPsychQuery platform config flags input p.1).2, multi)) := by
  obtain ⟨multi, hrounds⟩ := @queryRoundsOn_eq platform config flags input.t0 input.rounds
    (atol config.retryCount).toNat (firstSleep config) 0
    ({ state := p.1, pending := List.range p.1.count }, p.2) hsound
    (fun c hc => List.mem_range.mpr (hown c hc))
  have hcount := (queryRoundsOn_invariant (sameTimes_invariant platform config _ p.1) flags
    input.t0 input.rounds (atol config.retryCount).toNat (firstSleep config) 0
    (q := ({ state := p.1, pending := List.range p.1.count }, p.2)) (List.Subset.refl _)
    (.refl p.1)).count
  unfold httpPsychQueryOn httpPsychQuery
  rw [hrounds] at hcount ⊢
  dsimp only at hcount ⊢
  cases hr : queryRounds platform config flags input.t0 input.rounds
      (atol config.retryCount).toNat (firstSleep config) 0
      { state := p.1, pending := List.range p.1.count } with
  | mk r q =>
    rw [hr] at hcount
    cases r with
    | error e => exact ⟨multi, rfl⟩
    | ok _ =>
      have hcleanup : ((List.range p.1.count).foldl closeHandle (q.state, multi)).1 =
          q.state.cleanup := by
        rw [foldl_closeHandle_fst]
        unfold State.cleanup
        simp only [List.mem_range]
        rw [hcount]
      refine ⟨_, Prod.ext rfl (Prod.ext ?_ rfl)⟩
      dsimp only
      rw [hcleanup]

end Psych
