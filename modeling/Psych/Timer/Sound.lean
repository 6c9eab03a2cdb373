import Psych.Publish.Definedness
import Psych.Publish.Delivery
import Psych.Timer.Feed

/-!
# What holds in every run

After `Init` and any number of ticks and events the state is `Sound` (`run_sound`): every file
time comes from a response in the log, every accepted response was published, the provider is
ready for every resource, and what a refresh submitted is in the histories of the sessions.
-/

namespace Psych

variable {platform : Platform} {config : Config}

/-! ## Sound states -/

/-- An accepted response is followed by a refresh with its table, and a refresh had a table
that fits and a provider that is ready; what it submitted is in the histories. -/
def Accounted (platform : Platform) (config : Config) (p : State) : Obs → Prop
  | .done c transfer connection _ => accepts platform config transfer connection →
      ∃ engineVersion calls provider, .refresh c transfer connection.resource
        (scannedTable platform connection.data engineVersion) calls provider ∈ p.log
  | .refresh _ _ resource table calls provider =>
      table.Rectangular ∧ provider.Ready resource ∧
      provider.sessions.length = p.provider.sessions.length ∧
      ∀ turn ∈ (sendRefresh config resource table calls provider).2.provider.turns,
        turn.done p.provider
  | _ => True

structure Sound (platform : Platform) (config : Config) (p : State) : Prop where
  resource : ∀ c, (p.connections c).resource ∈ config.resources
  ready : ∀ resource ∈ config.resources, p.provider.Ready resource
  lastFiletime : ∀ c, (p.connections c).lastFiletime ≠ 0 → ∃ transfer connection lastFiletime,
    .done c transfer connection lastFiletime ∈ p.log ∧
      reachesTable config transfer connection ∧
      transfer.filetime = (p.connections c).lastFiletime
  accounted : ∀ o ∈ p.log, Accounted platform config p o

theorem Accounted.mono {p p' : State} {o : Obs} (h : Accounted platform config p o)
    (hlog : p.log ⊆ p'.log)
    (hlength : p'.provider.sessions.length = p.provider.sessions.length)
    (hdone : ∀ turn : Turn, turn.done p.provider → turn.done p'.provider) :
    Accounted platform config p' o := by
  cases o with
  | done c transfer connection lastFiletime =>
    intro haccepts
    obtain ⟨engineVersion, calls, provider, hmem⟩ := h haccepts
    exact ⟨engineVersion, calls, provider, hlog hmem⟩
  | refresh c transfer resource table calls provider =>
    obtain ⟨hrect, hready, hlen, hturns⟩ := h
    exact ⟨hrect, hready, hlen.trans hlength.symm, fun turn hturn => hdone turn (hturns turn hturn)⟩
  | request | header | accept | sleep | retriesExceeded => trivial

theorem State.Fresh.sound {sessions : Nat} {p : State} (h : p.Fresh config sessions) :
    Sound platform config p := by
  refine ⟨h.resource, fun resource hr => ?_, fun c hc => absurd (h.lastFiletime c) hc, ?_⟩
  · rw [h.provider]
    exact create_ready sessions hr
  · rw [h.log]
    simp

theorem Sound.quiet {p p' : State} (hq : Quiet p p') (h : Sound platform config p) :
    Sound platform config p' := by
  obtain ⟨new, hlog, hnew⟩ := hq.log
  have hsub : p.log ⊆ p'.log := by
    rw [hlog]
    exact List.subset_append_right _ _
  refine ⟨fun c => ?_, fun resource hr => ?_, fun c hc => ?_, fun o ho => ?_⟩
  · rw [hq.resource]
    exact h.resource c
  · rw [hq.provider]
    exact h.ready resource hr
  · rw [hq.lastFiletime] at hc ⊢
    obtain ⟨transfer, connection, f, hmem, hrest⟩ := h.lastFiletime c hc
    exact ⟨transfer, connection, f, hsub hmem, hrest⟩
  · rw [hlog] at ho
    rcases List.mem_append.mp ho with ho | ho
    · have hno := hnew o ho
      cases o with
      | done | refresh | accept => exact absurd trivial hno
      | request | header | sleep | retriesExceeded => trivial
    · exact (h.accounted o ho).mono hsub (by rw [hq.provider]) fun turn ht => hq.provider ▸ ht

theorem Sound.deliver (events : List (Nat × RfaEvent)) {p : State} (h : Sound platform config p) :
    Sound platform config (p.deliver events).2 := by
  have hgrows := processEvents_grows events p.provider
  exact ⟨h.resource, fun resource hr => (h.ready resource hr).of_grows hgrows, h.lastFiletime,
    fun o ho => (h.accounted o ho).mono (List.Subset.refl _) hgrows.length
      fun turn ht => Turn.done_of_grows hgrows ht⟩

/-! ## Messages -/

/-- The entries of a message and the provider after it. -/
theorem Handled.summary {message : Nat × Report} {q : Query} {r : Except Fault Unit × Query}
    (h : Handled platform config message q r) :
    ((q.verdict platform config message).1 ≠ .ok true ∧
      r.2.state.log = q.doneObs platform config message :: q.state.log ∧
      r.2.state.provider = q.state.provider) ∨
    ((q.verdict platform config message).1 = .ok true ∧
      (∃ last, (∀ o ∈ last, ∃ c transfer, o = .accept c transfer) ∧
        r.2.state.log = last ++ q.refreshObs platform config message ::
          q.doneObs platform config message :: q.state.log) ∧
      r.2.state.provider = (q.refresh platform config message).2.provider) := by
  cases h with
  | faulted e verdict _ log provider =>
    exact Or.inl ⟨by rw [verdict]; simp, log, provider⟩
  | rejected verdict _ log provider => exact Or.inl ⟨by rw [verdict]; simp, log, provider⟩
  | undefined verdict _ _ log provider =>
    exact Or.inr ⟨verdict, ⟨[], by simp, log⟩, provider⟩
  | accepted verdict _ _ _ log provider =>
    exact Or.inr ⟨verdict, ⟨[_], fun o ho => ⟨_, _, List.mem_singleton.mp ho⟩, log⟩, provider⟩

/-- The file time of the connection after its message, if any, is an older one or that of the
response. -/
theorem verdict_lastFiletime (platform : Platform) (config : Config) (message : Nat × Report)
    (q : Query) :
    (q.verdict platform config message).2.connection.lastFiletime =
      (q.state.connections message.1).lastFiletime ∨
    (reachesTable config message.2.transfer (q.state.connections message.1) ∧
      message.2.transfer.filetime =
        (q.verdict platform config message).2.connection.lastFiletime) := by
  unfold Query.verdict
  by_cases hreach : reachesTable config message.2.transfer (q.state.connections message.1)
  · rw [(respond_of_reaches hreach platform q.state.stats q.engineVersion).2.1]
    unfold filetimeAfter
    dsimp only
    split
    · exact Or.inl rfl
    · exact Or.inr ⟨hreach, rfl⟩
  · rw [(respond_of_not_reaches hreach platform q.state.stats q.engineVersion).2]
    exact Or.inl rfl

/-- The connections after a message have their resources, and file times from the log. -/
theorem Sound.connections {message : Nat × Report} {q : Query} {p' : State}
    (h : Sound platform config q.state)
    (hconn : p'.connections = fun c => if c = message.1 then
      (q.verdict platform config message).2.connection else q.state.connections c)
    (hsub : q.state.log ⊆ p'.log) (hdone : q.doneObs platform config message ∈ p'.log) :
    (∀ c, (p'.connections c).resource ∈ config.resources) ∧
    ∀ c, (p'.connections c).lastFiletime ≠ 0 → ∃ transfer connection lastFiletime,
      .done c transfer connection lastFiletime ∈ p'.log ∧
        reachesTable config transfer connection ∧
        transfer.filetime = (p'.connections c).lastFiletime := by
  have hold : ∀ c, (q.state.connections c).lastFiletime ≠ 0 → ∃ transfer connection lastFiletime,
      .done c transfer connection lastFiletime ∈ p'.log ∧
        reachesTable config transfer connection ∧
        transfer.filetime = (q.state.connections c).lastFiletime := by
    intro c hc
    obtain ⟨transfer, connection, f, hmem, hrest⟩ := h.lastFiletime c hc
    exact ⟨transfer, connection, f, hsub hmem, hrest⟩
  rw [hconn]
  refine ⟨fun c => ?_, fun c hc => ?_⟩
  · dsimp only
    split
    · rename_i hmessage
      unfold Query.verdict
      rw [respond_resource]
      exact h.resource message.1
    · exact h.resource c
  · by_cases hmessage : c = message.1
    · subst hmessage
      simp only [if_true] at hc ⊢
      rcases verdict_lastFiletime platform config message q with
        hsame | ⟨hreach, hfiletime⟩
      · rw [hsame] at hc ⊢
        exact hold message.1 hc
      · exact ⟨_, _, _, hdone, hreach, hfiletime⟩
    · simp only [if_neg hmessage] at hc ⊢
      exact hold c hc

theorem Sound.message (message : Nat × Report) (q : Query) (h : Sound platform config q.state) :
    Sound platform config (handleMessage platform config message q).2.state := by
  have hconn := handleMessage_connections platform config message q
  have haccepts := respond_accepts_iff platform config message.2.transfer
    (q.state.connections message.1) q.state.stats q.engineVersion
  have hcases : Handled platform config message q (handleMessage platform config message q) :=
    handleMessage_cases message q
  rcases hcases.summary with
    ⟨hverdict, hlog, hprovider⟩ | ⟨hverdict, ⟨last, hlast, hlog⟩, hprovider⟩
  · have hsub : q.state.log ⊆ (handleMessage platform config message q).2.state.log := by
      rw [hlog]
      exact List.subset_cons_self _ _
    obtain ⟨hresource, hfiletime⟩ := h.connections hconn hsub (by rw [hlog]; exact List.mem_cons_self)
    refine ⟨hresource, fun resource hr => hprovider ▸ h.ready resource hr, hfiletime,
      fun o ho => ?_⟩
    rw [hlog] at ho
    rcases List.mem_cons.mp ho with rfl | ho
    · intro hyes
      exact absurd (haccepts.mpr hyes) hverdict
    · exact (h.accounted o ho).mono hsub (by rw [hprovider]) fun turn ht => hprovider ▸ ht
  · have hsub : q.state.log ⊆ (handleMessage platform config message q).2.state.log := by
      rw [hlog]
      exact fun o ho => List.mem_append_right _ (List.mem_cons_of_mem _ (List.mem_cons_of_mem _ ho))
    have hrefreshed : q.refreshObs platform config message ∈
        (handleMessage platform config message q).2.state.log := by
      rw [hlog]
      exact List.mem_append_right _ List.mem_cons_self
    obtain ⟨hresource, hfiletime⟩ := h.connections hconn hsub
      (by rw [hlog]; exact List.mem_append_right _ (List.mem_cons_of_mem _ List.mem_cons_self))
    obtain ⟨htable, hbody⟩ := respond_table hverdict
    have hgrows := sendRefresh_grows config (q.state.connections message.1).resource
      (q.verdict platform config message).2.table message.2.calls q.state.provider
    have hstart : ∀ turn : Turn, turn.done q.state.provider →
        turn.done (handleMessage platform config message q).2.state.provider := by
      intro turn hturn
      rw [hprovider]
      exact Turn.done_of_grows hgrows hturn
    refine ⟨hresource, fun resource hr => ?_, hfiletime, fun o ho => ?_⟩
    · rw [hprovider]
      exact (start_ready (h.ready resource hr)).of_grows hgrows
    rw [hlog] at ho
    rcases List.mem_append.mp ho with ho | ho
    · obtain ⟨c, transfer, rfl⟩ := hlast o ho
      trivial
    rcases List.mem_cons.mp ho with rfl | ho
    · refine ⟨?_, h.ready _ (h.resource message.1), ?_, ?_⟩
      · rw [Query.verdict, htable]
        exact (scannedTable_shape q.engineVersion hbody).1
      · rw [hprovider]
        exact hgrows.length.symm
      · rw [hprovider]
        exact sendRefresh_faithful _ _ _ _ _
    rcases List.mem_cons.mp ho with rfl | ho
    · intro _
      unfold Query.refreshObs at hrefreshed
      rw [Query.verdict, htable] at hrefreshed
      exact ⟨q.engineVersion, message.2.calls, q.state.provider, hrefreshed⟩
    · refine (h.accounted o ho).mono hsub ?_ hstart
      rw [hprovider]
      exact hgrows.length

theorem sound_invariant (platform : Platform) (config : Config) :
    FeedInvariant platform config fun _ p => Sound platform config p where
  quiet _ _ hq hp := hp.quiet hq
  message message q hq := Sound.message message q hq
  caught _ hp := hp
  deliver events _ hp := hp.deliver events

/-- Every run keeps the state sound. -/
theorem run_sound (platform : Platform) (inputs : List FeedInput) {feed : Feed}
    (h : Sound platform config feed.state) :
    Sound platform config (feed.run platform config inputs).2.state :=
  run_invariant (sound_invariant platform config) inputs h

end Psych
