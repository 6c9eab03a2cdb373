import Psych.Timer.Versions

/-!
# Against a server that keeps its files

A server that answers 200 only with a file newer than the one it is asked about, and with the file
of that time (`Obs.Honest`). Then every connection publishes the versions of its file in their order
and none of them twice, through all retries, failures and rejections; and every version that is
accepted is published (`served_in_order`).
-/

namespace Psych

/-- The answer to a timer query, which asks for a file newer than `last_filetime`. A file has a
version for each of its times. -/
def Obs.Honest (file : Nat → Int → Text) : Obs → Prop
  | .done c transfer connection _ => transfer.responseCode = 200 →
      connection.lastFiletime < transfer.filetime ∧ connection.data = file c transfer.filetime
  | _ => True

instance (file : Nat → Int → Text) : DecidablePred (Obs.Honest file)
  | .done c transfer connection _ =>
    inferInstanceAs (Decidable (transfer.responseCode = 200 →
      connection.lastFiletime < transfer.filetime ∧ connection.data = file c transfer.filetime))
  | .request .. | .header .. | .refresh .. | .accept .. | .sleep .. | .retriesExceeded =>
    .isTrue trivial

/-- The file time of a table that was given to `SendRefresh` for the connection. -/
def Obs.publishedTime (c : Nat) : Obs → Option Int
  | .refresh c' transfer _ _ _ _ => if c' = c then some transfer.filetime else none
  | _ => none

/-- The times of the versions that the connection has published, newest first. -/
def publishedTimes (c : Nat) (log : List Obs) : List Int := log.filterMap (Obs.publishedTime c)

/-- A refresh has the table of its version. -/
def Obs.OfVersion (platform : Platform) (file : Nat → Int → Text) : Obs → Prop
  | .refresh c transfer _ table _ _ =>
      ∃ engineVersion, table = scannedTable platform (file c transfer.filetime) engineVersion
  | _ => True

/-- What the connections have published of their files. -/
structure InOrder (platform : Platform) (file : Nat → Int → Text) (p : State) : Prop where
  nonneg : ∀ c, 0 ≤ (p.connections c).lastFiletime
  bounded : ∀ c, ∀ time ∈ publishedTimes c p.log, time ≤ (p.connections c).lastFiletime
  sorted : ∀ c, (publishedTimes c p.log).Pairwise (· > ·)
  version : ∀ o ∈ p.log, o.OfVersion platform file

variable {platform : Platform} {config : Config} {file : Nat → Int → Text}

theorem publishedTimes_of_no_response {log new : List Obs} (h : ∀ o ∈ new, ¬ o.ofResponse) (c : Nat) :
    publishedTimes c (new ++ log) = publishedTimes c log := by
  have hnew : new.filterMap (Obs.publishedTime c) = [] := by
    refine List.filterMap_eq_nil_iff.mpr fun o ho => ?_
    have hno := h o ho
    cases o with
    | refresh => exact absurd trivial hno
    | request | header | done | accept | sleep | retriesExceeded => rfl
  unfold publishedTimes
  rw [List.filterMap_append, hnew, List.nil_append]

theorem State.Fresh.inOrder {sessions : Nat} {p : State} (h : p.Fresh config sessions) :
    InOrder platform file p := by
  refine ⟨fun c => (h.lastFiletime c).ge, fun c => ?_, fun c => ?_, ?_⟩ <;> rw [h.log]
  · exact fun time htime => absurd htime List.not_mem_nil
  · exact .nil
  · exact fun o ho => absurd ho List.not_mem_nil

theorem InOrder.quiet {p p' : State} (hq : Quiet p p') (h : InOrder platform file p) :
    InOrder platform file p' := by
  obtain ⟨new, hlog, hnew⟩ := hq.log
  have htimes := @publishedTimes_of_no_response p.log _ hnew
  refine ⟨fun c => ?_, fun c => ?_, fun c => ?_, fun o ho => ?_⟩
  · rw [hq.lastFiletime]
    exact h.nonneg c
  · rw [hq.lastFiletime, hlog, htimes]
    exact h.bounded c
  · rw [hlog, htimes]
    exact h.sorted c
  · rw [hlog] at ho
    rcases List.mem_append.mp ho with ho | ho
    · have hno := hnew o ho
      cases o with
      | refresh => exact absurd trivial hno
      | request | header | done | accept | sleep | retriesExceeded => trivial
    · exact h.version o ho

/-- The file time of a connection after its message. -/
theorem lastFiletime_after {message : Nat × Report} {q : Query}
    (hhonest : (q.doneObs platform config message).Honest file) :
    (q.state.connections message.1).lastFiletime ≤
        (q.verdict platform config message).2.connection.lastFiletime ∧
      (reachesTable config message.2.transfer (q.state.connections message.1) →
        0 ≤ (q.state.connections message.1).lastFiletime →
        (q.verdict platform config message).2.connection.lastFiletime =
          message.2.transfer.filetime) := by
  have hhonest : message.2.transfer.responseCode = 200 →
      (q.state.connections message.1).lastFiletime < message.2.transfer.filetime ∧
        (q.state.connections message.1).data = file message.1 message.2.transfer.filetime := hhonest
  unfold Query.verdict
  by_cases hreach : reachesTable config message.2.transfer (q.state.connections message.1)
  · have hnewer := (hhonest hreach.1).1
    rw [(respond_of_reaches hreach platform q.state.stats q.engineVersion).2.1]
    unfold filetimeAfter
    dsimp only
    split
    · rename_i hunknown
      exact ⟨le_rfl, fun _ hnonneg => by omega⟩
    · exact ⟨hnewer.le, fun _ _ => rfl⟩
  · rw [(respond_of_not_reaches hreach platform q.state.stats q.engineVersion).2]
    exact ⟨le_rfl, fun h => absurd h hreach⟩

theorem InOrder.message (message : Nat × Report) (q : Query) (h : InOrder platform file q.state)
    (hhonest : (q.doneObs platform config message).Honest file) :
    InOrder platform file (handleMessage platform config message q).2.state := by
  obtain ⟨hgrows, hreached⟩ := lastFiletime_after hhonest
  have hconn := handleMessage_connections platform config message q
  have hafter : ∀ c, (q.state.connections c).lastFiletime ≤
      ((handleMessage platform config message q).2.state.connections c).lastFiletime := by
    intro c
    rw [hconn]
    dsimp only
    split
    · rename_i heq
      rw [heq]
      exact hgrows
    · exact le_rfl
  have hcases : Handled platform config message q (handleMessage platform config message q) :=
    handleMessage_cases message q
  rcases hcases.summary with ⟨-, hlog, -⟩ | ⟨hverdict, ⟨last, hlast, hlog⟩, -⟩
  · have htimes : ∀ c, publishedTimes c (handleMessage platform config message q).2.state.log =
        publishedTimes c q.state.log := by
      intro c
      rw [hlog]
      rfl
    refine ⟨fun c => (h.nonneg c).trans (hafter c), fun c time htime => ?_, fun c => ?_, ?_⟩
    · rw [htimes] at htime
      exact (h.bounded c time htime).trans (hafter c)
    · rw [htimes]
      exact h.sorted c
    · rw [hlog, List.forall_mem_cons]
      exact ⟨trivial, h.version⟩
  · have haccepts := (respond_accepts_iff platform config message.2.transfer
      (q.state.connections message.1) q.state.stats q.engineVersion).mp hverdict
    obtain ⟨hnewer, hdata⟩ := hhonest haccepts.1.1
    have hown := hreached haccepts.1 (h.nonneg message.1)
    have hlasttimes : ∀ c log, publishedTimes c (last ++ log) = publishedTimes c log := by
      intro c log
      have hnil : last.filterMap (Obs.publishedTime c) = [] := by
        refine List.filterMap_eq_nil_iff.mpr fun o ho => ?_
        obtain ⟨c', transfer, rfl⟩ := hlast o ho
        rfl
      unfold publishedTimes
      rw [List.filterMap_append, hnil, List.nil_append]
    have htimes : ∀ c, publishedTimes c (handleMessage platform config message q).2.state.log =
        if message.1 = c then message.2.transfer.filetime :: publishedTimes c q.state.log
        else publishedTimes c q.state.log := by
      intro c
      rw [hlog, hlasttimes]
      unfold publishedTimes
      have htime : (q.refreshObs platform config message).publishedTime c =
          if message.1 = c then some message.2.transfer.filetime else none := rfl
      by_cases heq : message.1 = c
      · rw [if_pos heq] at htime ⊢
        rw [List.filterMap_cons_some htime]
        rfl
      · rw [if_neg heq] at htime ⊢
        rw [List.filterMap_cons_none htime]
        rfl
    have hlastFiletime : ((handleMessage platform config message q).2.state.connections
        message.1).lastFiletime = message.2.transfer.filetime := by
      rw [hconn]
      simp only [if_true]
      exact hown
    refine ⟨fun c => (h.nonneg c).trans (hafter c), fun c time htime => ?_, fun c => ?_, ?_⟩
    · rw [htimes] at htime
      split at htime
      · rename_i heq
        subst heq
        rcases List.mem_cons.mp htime with rfl | htime
        · exact hlastFiletime.ge
        · exact (h.bounded _ time htime).trans (hafter _)
      · exact (h.bounded c time htime).trans (hafter c)
    · rw [htimes]
      split
      · rename_i heq
        subst heq
        refine List.pairwise_cons.mpr ⟨fun time htime => ?_, h.sorted _⟩
        exact (h.bounded _ time htime).trans_lt hnewer
      · exact h.sorted c
    · intro o ho
      rw [hlog] at ho
      rcases List.mem_append.mp ho with ho | ho
      · obtain ⟨c, transfer, rfl⟩ := hlast o ho
        trivial
      rcases List.mem_cons.mp ho with rfl | ho
      · obtain ⟨htable, -⟩ := respond_table hverdict
        refine ⟨q.engineVersion, ?_⟩
        rw [← hdata]
        exact htable
      rcases List.mem_cons.mp ho with rfl | ho
      · trivial
      · exact h.version o ho

/-- While the server is honest, what the connections publish is in order. -/
theorem inOrder_invariant (platform : Platform) (config : Config) (file : Nat → Int → Text) :
    FeedInvariant platform config fun _ p => (∀ o ∈ p.log, o.Honest file) →
      InOrder platform file p where
  quiet := by
    intro p p' r _ hq h hhonest
    obtain ⟨new, hlog, -⟩ := hq.log
    rw [hlog, List.forall_mem_append] at hhonest
    exact (h hhonest.2).quiet hq
  message := by
    intro message q h hhonest
    have hcases : Handled platform config message q (handleMessage platform config message q) :=
      handleMessage_cases message q
    have hlog : q.doneObs platform config message ∈
          (handleMessage platform config message q).2.state.log ∧
        q.state.log ⊆ (handleMessage platform config message q).2.state.log := by
      rcases hcases.summary with ⟨-, hlog, -⟩ | ⟨-, ⟨last, -, hlog⟩, -⟩
      · rw [hlog]
        exact ⟨List.mem_cons_self, List.subset_cons_self _ _⟩
      · rw [hlog]
        refine ⟨List.mem_append_right _ (List.mem_cons_of_mem _ List.mem_cons_self), fun o ho => ?_⟩
        exact List.mem_append_right _ (List.mem_cons_of_mem _ (List.mem_cons_of_mem _ ho))
    exact (h fun o ho => hhonest o (hlog.2 ho)).message message q (hhonest _ hlog.1)
  caught := fun _ h => h
  deliver := fun _ _ h hhonest =>
    let hp := h hhonest
    ⟨hp.nonneg, hp.bounded, hp.sorted, hp.version⟩

/-- In every run after `Init` against an honest server, each connection has published versions of
its own file, each later than the one before it, and every version it accepted is among them. -/
theorem served_in_order {sessions : Nat} {feed : Feed} (h : feed.state.Fresh config sessions)
    (inputs : List FeedInput)
    (hhonest : ∀ o ∈ (feed.run platform config inputs).2.state.log, o.Honest file) (c : Nat) :
    let p := (feed.run platform config inputs).2.state
    (publishedTimes c p.log).Pairwise (· > ·) ∧
    (∀ transfer resource table calls provider,
      .refresh c transfer resource table calls provider ∈ p.log → ∃ engineVersion,
        table = scannedTable platform (file c transfer.filetime) engineVersion) ∧
    ∀ transfer connection lastFiletime, .done c transfer connection lastFiletime ∈ p.log →
      accepts platform config transfer connection → transfer.filetime ∈ publishedTimes c p.log := by
  have horder := run_invariant (inOrder_invariant platform config file) inputs
    (fun _ => h.inOrder) hhonest
  have hsound := run_sound platform inputs h.sound
  refine ⟨horder.sorted c, fun transfer resource table calls provider hmem => horder.version _ hmem,
    fun transfer connection lastFiletime hmem haccepts => ?_⟩
  obtain ⟨engineVersion, calls, provider, hrefresh⟩ := hsound.accounted _ hmem haccepts
  exact List.mem_filterMap.mpr ⟨_, hrefresh, if_pos rfl⟩

/-- One version of the file, to a session that has logged in. -/
theorem sample_served_in_order :
    let p := (publishedRun true).2.state
    (publishedTimes 0 p.log).Pairwise (· > ·) ∧
    (∀ transfer resource table calls provider,
      .refresh 0 transfer resource table calls provider ∈ p.log → ∃ engineVersion,
        table = scannedTable boostPlatform sampleBody engineVersion) ∧
    ∀ transfer connection lastFiletime, .done 0 transfer connection lastFiletime ∈ p.log →
      accepts boostPlatform sampleConfig transfer connection →
        transfer.filetime ∈ publishedTimes 0 p.log := by
  have hhonest : ∀ o ∈ (publishedRun true).2.state.log, o.Honest fun _ _ => sampleBody := by
    unfold publishedRun newFile
    rw [sampleBody_eq]
    decide +kernel
  unfold publishedRun at hhonest ⊢
  exact served_in_order sample_fresh [loginSuccess, newFile true] hhonest 0

end Psych
