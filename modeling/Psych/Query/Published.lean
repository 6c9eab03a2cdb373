import Psych.Publish.Delivery
import Psych.Publish.FeedContents
import Psych.Publish.Wire
import Psych.Query.Invariants
import Psych.Query.Retries

/-!
# From the server to the subscribers

A feed that the server delivers on a connection, in chunks of any size and between the callbacks of
other connections, is published as it was written: every session that may send submits the messages
of the feed, next to each other and in its order (`feed_published`). The rounds before the one in
which the feed is delivered may leave the connection unanswered, as long as the retries last.

What the RFA calls for other connections do is left open, but for the events that come in between.
-/

namespace Psych

/-! ## What libcurl delivers -/

/-- The bytes a callback brings to a connection. -/
def Callback.chunk (c : Nat) : Callback → Text
  | .data c' chunk => if c' = c then chunk else []
  | .header .. => []

/-- The bytes a round brings to a connection. -/
def RoundInput.body (input : RoundInput) (c : Nat) : Text :=
  input.first.flatMap (Callback.chunk c) ++ input.further.flatMap (Callback.chunk c)

/-- The times of a response are rendered. -/
def Platform.logsTimes (platform : Platform) : Prop :=
  platform.logInfo = true ∨ platform.vlog4 = true

/-- A header line of the connection, if it is one, leaves a time that can be rendered. -/
def Callback.renders (platform : Platform) (c : Nat) : Callback → Prop
  | .header c' line => c' = c → ∀ connection connection' : Connection,
      onHttpHeader platform connection line = .ok connection' →
        platform.prints connection.httpdPtime = true →
          platform.prints connection'.httpdPtime = true
  | .data .. => True

/-- In a round of a query that started at `t0`, libcurl delivers a feed on the connection `c`. -/
structure Serves (platform : Platform) (config : Config) (t0 : Int) (feed : FeedFile)
    (lineEnd : LineEnd) (c : Nat) (input : RoundInput) : Prop where
  handle : input.easyInit c = true
  reported : c ∈ input.order
  body : input.body c = feed.render lineEnd
  status : (input.report c).transfer.responseCode = 200
  contentType : ∃ contentType, (input.report c).transfer.contentType = some contentType ∧
    textPlain.isPrefixOf contentType = true
  atLeast : toSize (minimumResponseSize config) ≤ (feed.render lineEnd).length
  atMost : (feed.render lineEnd).length ≤ toSize (atol config.maximumResponseSize)
  filetime : (input.report c).transfer.filetime = -1 ∨ ∀ connection : Connection,
    connection.requestPtime = some t0 →
      panics config (input.report c).transfer connection = false
  headers : platform.logsTimes → ∀ call ∈ input.first ++ input.further, call.renders platform c
  times : platform.logsTimes →
    ∀ t ∈ [t0, (input.report c).transfer.filetime * ticksPerSecond, feed.openTime.ticks,
      feed.closeTime.ticks], platform.printable t = true
  calls : ∀ k, ((input.report c).calls k).Benign

/-- A round that leaves the connection pending. -/
def Unanswered (c : Nat) (input : RoundInput) : Prop :=
  c ∉ input.order ∨ input.easyInit c = false ∨ (input.report c).transfer.responseCode ≠ 200

/-- No RFA event comes while the tables of a round are published. -/
def RoundInput.Silent (input : RoundInput) : Prop := ∀ c, Psych.Silent (input.report c).calls

/-! ## The transfer -/

/-- A connection in the middle of its transfer, with the part of the body that has come. -/
structure Receiving (platform : Platform) (config : Config) (t0 : Int) (resource : Resource)
    (body : Text) (connection : Connection) : Prop where
  resource : connection.resource = resource
  data : connection.data = body
  capacity : toSize (atol config.maximumResponseSize) ≤ connection.capacity
  requestPtime : connection.requestPtime = some t0
  httpdPtime : platform.logsTimes → platform.prints connection.httpdPtime = true

variable {platform : Platform} {config : Config} {flags : QueryFlags} {t0 : Int}
  {resource : Resource} {c : Nat}

theorem prepare_receiving (hreserve : ∀ capacity n, n ≤ platform.reserve capacity n)
    {easyInit : Nat → Bool} (hinit : easyInit c = true) {pending : List Nat} (hc : c ∈ pending)
    {p : State} (hresource : (p.connections c).resource = resource) :
    Receiving platform config t0 resource []
      ((pending.foldl (prepare platform config flags t0 easyInit) p).connections c) := by
  have hfresh : ∀ p : State, (p.connections c).resource = resource →
      Receiving platform config t0 resource []
        ((prepare platform config flags t0 easyInit p c).connections c) := by
    intro p hp
    unfold prepare
    dsimp only
    rw [if_pos hinit]
    simp only [State.observe, State.setConnection, if_true]
    exact ⟨hp, rfl, hreserve _ _, rfl, fun _ => rfl⟩
  have hother : ∀ (p : State) (d : Nat), c ≠ d →
      (prepare platform config flags t0 easyInit p d).connections c = p.connections c := by
    intro p d hne
    unfold prepare
    dsimp only
    split <;> simp only [State.observe, State.setConnection, if_neg hne]
  suffices hall : ∀ (pending : List Nat) (p : State), (p.connections c).resource = resource →
      (c ∈ pending ∨ Receiving platform config t0 resource [] (p.connections c)) →
        Receiving platform config t0 resource []
          ((pending.foldl (prepare platform config flags t0 easyInit) p).connections c) from
    hall pending p hresource (Or.inl hc)
  intro pending
  induction pending with
  | nil => exact fun p _ h => h.resolve_left (by simp)
  | cons d pending ih =>
    intro p hp h
    rw [List.foldl_cons]
    by_cases hcd : c = d
    · subst hcd
      exact ih _ (hfresh p hp).resource (Or.inr (hfresh p hp))
    · apply ih _ (by rw [hother p d hcd]; exact hp)
      rw [hother p d hcd]
      exact h.imp_left fun hmem => (List.mem_cons.mp hmem).resolve_left hcd

theorem callback_receiving {call : Callback} {body : Text} {p : State}
    (h : Receiving platform config t0 resource body (p.connections c))
    (hfits : (body ++ call.chunk c).length ≤ toSize (atol config.maximumResponseSize))
    (hrenders : platform.logsTimes → call.renders platform c)
    (hok : (callback platform call p).1 = .ok ()) :
    Receiving platform config t0 resource (body ++ call.chunk c)
      ((callback platform call p).2.connections c) := by
  cases call with
  | header d line =>
    have hchunk : (Callback.header d line).chunk c = [] := rfl
    rw [hchunk, List.append_nil]
    unfold callback at hok ⊢
    rcases onHttpHeader_cases platform (p.connections d) line with
      ⟨_, httpd, heq⟩ | ⟨_, e, _, heq⟩
    · simp only [heq, State.setConnection, State.observe]
      by_cases hcd : c = d
      · subst hcd
        rw [if_pos rfl]
        exact ⟨h.resource, h.data, h.capacity, h.requestPtime,
          fun hlogs => hrenders hlogs rfl _ _ heq (h.httpdPtime hlogs)⟩
      · rw [if_neg hcd]
        exact h
    · simp only [heq] at hok
      cases hok
  | data d chunk =>
    have hchunk : (Callback.data d chunk).chunk c = if d = c then chunk else [] := rfl
    unfold callback
    simp only [State.setConnection]
    rw [hchunk] at hfits ⊢
    by_cases hcd : c = d
    · subst hcd
      rw [if_pos rfl] at hfits
      rw [if_pos rfl, if_pos rfl]
      have htaken : ¬ (p.connections c).data.length + chunk.length >
          (p.connections c).capacity := by
        have hcapacity := h.capacity
        rw [List.length_append] at hfits
        rw [h.data]
        omega
      unfold onHttpData
      rw [if_neg htaken, h.data]
      exact ⟨h.resource, rfl, h.capacity, h.requestPtime, h.httpdPtime⟩
    · rw [if_neg hcd, if_neg fun heq => hcd heq.symm, List.append_nil]
      exact h

theorem callbacks_receiving {calls : List Callback} {body : Text} {p : State}
    (h : Receiving platform config t0 resource body (p.connections c))
    (hfits : (body ++ calls.flatMap (Callback.chunk c)).length ≤
      toSize (atol config.maximumResponseSize))
    (hrenders : platform.logsTimes → ∀ call ∈ calls, call.renders platform c)
    (hok : (Faults.forEach (callback platform) calls p).1 = .ok ()) :
    Receiving platform config t0 resource (body ++ calls.flatMap (Callback.chunk c))
      ((Faults.forEach (callback platform) calls p).2.connections c) := by
  refine Faults.forEach_prefix_of_ok (I := fun pre p => Receiving platform config t0 resource
    (body ++ pre.flatMap (Callback.chunk c)) (p.connections c))
    (fun pre call post s hsplit hI hcall => ?_) ?_ hok
  · rw [List.flatMap_append, List.flatMap_singleton, ← List.append_assoc]
    refine callback_receiving hI ?_ ?_ hcall
    · rw [hsplit, List.flatMap_append, List.flatMap_cons] at hfits
      simp only [List.length_append] at hfits ⊢
      omega
    · intro hlogs
      exact hrenders hlogs call (by rw [hsplit]; simp)
  · rw [List.flatMap_nil, List.append_nil]
    exact h

/-- After the transfers of a round the connection holds the feed. -/
theorem transfers_receiving {feed : FeedFile} {lineEnd : LineEnd} {input : RoundInput}
    (h : Serves platform config t0 feed lineEnd c input) {requests : Nat} {p : State}
    (hp : Receiving platform config t0 resource [] (p.connections c))
    (hok : (transfers platform input requests p).1 = .ok ()) :
    Receiving platform config t0 resource (feed.render lineEnd)
      ((transfers platform input requests p).2.connections c) := by
  have hbody := h.body
  have hmost := h.atMost
  unfold RoundInput.body at hbody
  rw [← hbody] at hmost ⊢
  have hfirst := @callbacks_receiving platform config t0 resource c input.first [] p hp
    (by rw [List.length_append] at hmost; rw [List.nil_append]; omega)
    (fun hlogs call hcall => h.headers hlogs call (List.mem_append_left _ hcall))
  unfold transfers at hok ⊢
  cases hr : Faults.forEach (callback platform) input.first p with
  | mk r p' =>
    rw [hr] at hok hfirst
    cases r with
    | error e => cases hok
    | ok _ =>
      have hmid := hfirst rfl
      rw [List.nil_append] at hmid
      exact callbacks_receiving (p := p'.tally .httpRequestSent requests) hmid hmost
        (fun hlogs call hcall => h.headers hlogs call (List.mem_append_right _ hcall)) hok

/-! ## A connection at every moment of a query -/

/-- What holds of a connection and of the provider in every state of a query. -/
structure Standing (c : Nat) (resource : Resource) (provider : Provider) (p : State) : Prop where
  resource_eq : (p.connections c).resource = resource
  ready : p.provider.Ready resource
  named : p.provider.streams.Named
  speaks : provider.Speaks ⊤ p.provider

section Rounds

variable {provider : Provider}

theorem Standing.quiet {p p' : State} (h : Standing c resource provider p)
    (hquiet : Quiet p p') : Standing c resource provider p' :=
  ⟨(hquiet.resource c).trans h.resource_eq, hquiet.provider ▸ h.ready, hquiet.provider ▸ h.named,
    hquiet.provider ▸ h.speaks⟩

theorem handleMessage_standing {message : Nat × Report} (hsilent : Silent message.2.calls)
    {q : Query} (h : Standing c resource provider q.state) :
    Standing c resource provider
      (handleMessage platform config message q).2.state := by
  have hresource : ((handleMessage platform config message q).2.state.connections c).resource =
      resource := by
    rw [handleMessage_connections]
    dsimp only
    split
    · rename_i hcm
      exact (respond_resource _ _ _ _ _ _).trans (hcm ▸ h.resource_eq)
    · exact h.resource_eq
  have hgrows := sendRefresh_grows config (q.state.connections message.1).resource
    (q.verdict platform config message).2.table message.2.calls q.state.provider
  have hspeaks : q.state.provider.Speaks ⊤ (q.refresh platform config message).2.provider :=
    sendRefresh_speaks_any hsilent q.state.provider
  cases @handleMessage_cases platform config message q with
  | faulted _ _ _ _ hprovider _ =>
    exact ⟨hresource, hprovider ▸ h.ready, hprovider ▸ h.named, hprovider ▸ h.speaks⟩
  | rejected _ _ _ hprovider _ =>
    exact ⟨hresource, hprovider ▸ h.ready, hprovider ▸ h.named, hprovider ▸ h.speaks⟩
  | undefined _ _ _ _ hprovider _ =>
    exact ⟨hresource, hprovider ▸ (start_ready h.ready).of_grows hgrows,
      hprovider ▸ h.named.of_same hgrows.streams, hprovider ▸ h.speaks.trans_any hspeaks⟩
  | accepted _ _ _ _ _ hprovider _ =>
    exact ⟨hresource, hprovider ▸ (start_ready h.ready).of_grows hgrows,
      hprovider ▸ h.named.of_same hgrows.streams, hprovider ▸ h.speaks.trans_any hspeaks⟩

theorem silent_reported {input : RoundInput} (hsilent : input.Silent) {pending : List Nat}
    {message : Nat × Report} (h : message ∈ input.reported pending) :
    Silent message.2.calls := by
  obtain ⟨d, _, rfl⟩ := List.mem_map.mp h
  exact hsilent d

/-- The state a round's messages start from. -/
def Query.transferred (platform : Platform) (config : Config) (flags : QueryFlags) (t0 : Int)
    (input : RoundInput) (q : Query) : Except Fault Unit × State :=
  transfers platform input q.pending.length
    (q.pending.foldl (prepare platform config flags t0 input.easyInit) q.state)

theorem Standing.transferred (input : RoundInput) {q : Query}
    (h : Standing c resource provider q.state) :
    Standing c resource provider
      (q.transferred platform config flags t0 input).2 :=
  h.quiet ((prepare_quiet platform config flags t0 input.easyInit q.pending q.state).trans
    (transfers_quiet platform input q.pending.length _))

/-- A round that ends without a fault has gone through its messages. -/
theorem queryRound_ok {input : RoundInput} {q : Query}
    (hok : (queryRound platform config flags t0 input q).1 = .ok ()) :
    (q.transferred platform config flags t0 input).1 = .ok () ∧
      queryRound platform config flags t0 input q =
        Faults.forEach (handleMessage platform config) (input.reported q.pending)
          { q with state := (q.transferred platform config flags t0 input).2
                   engineVersion := [] } := by
  rcases queryRound_cases platform config flags t0 input q with ⟨e, _, heq⟩ | ⟨htransfers, heq⟩
  · rw [heq] at hok
    cases hok
  · exact ⟨htransfers, heq⟩

theorem queryRound_standing {input : RoundInput} (hsilent : input.Silent) {q : Query}
    (h : Standing c resource provider q.state) :
    Standing c resource provider
      (queryRound platform config flags t0 input q).2.state := by
  have hmid : Standing c resource provider
      (q.transferred platform config flags t0 input).2 := h.transferred input
  rcases queryRound_cases platform config flags t0 input q with ⟨e, _, heq⟩ | ⟨_, heq⟩
  · rw [heq]
    exact hmid
  · rw [heq]
    exact Faults.forEach_invariant
      (fun q : Query => Standing c resource provider q.state)
      (fun message hm q hq => handleMessage_standing (silent_reported hsilent hm) hq) hmid

theorem queryRounds_standing {inputs : Nat → RoundInput} (hsilent : ∀ n, (inputs n).Silent)
    (retries : Nat) (sleep : Int) (n : Nat) {q : Query}
    (h : Standing c resource provider q.state) :
    Standing c resource provider
      (queryRounds platform config flags t0 inputs retries sleep n q).2.state := by
  induction retries using Nat.strong_induction_on generalizing sleep n q with
  | _ retries ih =>
    have hround : Standing c resource provider
        (queryRound platform config flags t0 (inputs n) q).2.state :=
      queryRound_standing (hsilent n) h
    rcases queryRounds_cases platform config flags t0 inputs retries sleep n q with
      ⟨heq, _⟩ | ⟨_, _, heq⟩ | ⟨_, _, left, hleft, heq⟩
    · rw [heq]
      exact hround
    · rw [heq]
      exact hround.quiet ((quiet_tally _ _ _).trans
        (quiet_observe _ (o := .retriesExceeded) fun h => h))
    · rw [heq]
      exact ih left (by omega) _ _ (hround.quiet (quiet_observe _ (o := .sleep sleep) fun h => h))

/-! ## Rounds before the feed comes -/

theorem handleMessage_pending_mem {message : Nat × Report} {q : Query} (hc : c ∈ q.pending)
    (hother : message.1 ≠ c ∨ message.2.transfer.responseCode ≠ 200) :
    c ∈ (handleMessage platform config message q).2.pending := by
  cases @handleMessage_cases platform config message q with
  | faulted _ _ _ _ _ hpending => exact hpending ▸ hc
  | rejected _ _ _ _ hpending => exact hpending ▸ hc
  | undefined _ _ _ _ _ hpending => exact hpending ▸ hc
  | accepted hverdict _ _ _ _ _ hpending =>
    rcases hother with hne | hcode
    · rw [hpending]
      exact (List.mem_erase_of_ne hne.symm).mpr hc
    · -- another status is not accepted
      exact absurd ((respond_accepts_iff _ _ _ _ _ _).mp hverdict).1.1 hcode

theorem queryRound_unanswered {input : RoundInput} (h : Unanswered c input) {q : Query}
    (hc : c ∈ q.pending) (hok : (queryRound platform config flags t0 input q).1 = .ok ()) :
    c ∈ (queryRound platform config flags t0 input q).2.pending := by
  obtain ⟨_, heq⟩ := queryRound_ok hok
  rw [heq]
  refine Faults.forEach_invariant (fun q : Query => c ∈ q.pending) (fun message hm q hq => ?_) hc
  apply handleMessage_pending_mem hq
  by_cases hmc : message.1 = c
  · right
    obtain ⟨d, hd, rfl⟩ := List.mem_map.mp hm
    obtain rfl : d = c := hmc
    rw [List.mem_filter, List.mem_dedup, Bool.and_eq_true] at hd
    rcases h with hno | hinit | hcode
    · exact absurd hd.1 hno
    · rw [hinit] at hd
      exact absurd hd.2.2 (by simp)
    · exact hcode
  · exact Or.inl hmc

/-! ## The round in which the feed comes -/

variable {feed : FeedFile} {lineEnd : LineEnd}

/-- A platform that reads the times of a feed, and reserves what it is asked for. -/
structure Platform.Carries (platform : Platform) (feed : FeedFile) : Prop where
  opens : platform.readsTime feed.openTime
  closes : platform.readsTime feed.closeTime
  reserve : ∀ capacity n, n ≤ platform.reserve capacity n

theorem Receiving.carries {connection : Connection} {input : RoundInput}
    (h : Receiving platform config t0 resource (feed.render lineEnd) connection)
    (hserves : Serves platform config t0 feed lineEnd c input) :
    CarriesFeed config (input.report c).transfer connection feed lineEnd ∧
      timesRender platform (input.report c).transfer connection feed := by
  refine ⟨⟨h.data, hserves.status, hserves.contentType, h.data ▸ hserves.atLeast, ?_⟩, ?_⟩
  · exact hserves.filetime.imp_right fun hpanics => hpanics connection h.requestPtime
  · intro hlogs t ht
    have htimes := hserves.times hlogs
    simp only [List.mem_cons, List.not_mem_nil, or_false] at ht
    rcases ht with rfl | rfl | rfl | rfl | rfl
    · rw [h.requestPtime]
      exact htimes _ (by simp)
    · exact h.httpdPtime hlogs
    · exact htimes _ (by simp)
    · exact htimes _ (by simp)
    · exact htimes _ (by simp)

/-- The message of the connection that holds a feed. -/
theorem handleMessage_feed (hplatform : platform.Carries feed) (hfeed : Publishable resource feed)
    {input : RoundInput} (hserves : Serves platform config t0 feed lineEnd c input)
    (hsilent : input.Silent) {q : Query}
    (hreceived : Receiving platform config t0 resource (feed.render lineEnd)
      (q.state.connections c))
    (hstanding : Standing c resource provider q.state)
    (hok : (handleMessage platform config (c, input.report c) q).1 = .ok ()) :
    q.state.provider.Speaks {feed.contents platform resource}
      (handleMessage platform config (c, input.report c) q).2.state.provider := by
  obtain ⟨hcarries, htimes⟩ := hreceived.carries hserves
  have haccepted := feed.accepted_render hplatform.opens hplatform.closes lineEnd
  rw [← hcarries.data] at haccepted
  have hverdict : (q.verdict platform config (c, input.report c)).1 = .ok true :=
    (respond_accepts_iff _ _ _ _ _ _).mpr ⟨hcarries.reaches, haccepted,
      (feed.rendered_render hplatform.opens hplatform.closes lineEnd hcarries.data).mpr htimes⟩
  have htable : (q.verdict platform config (c, input.report c)).2.table = feed.table platform := by
    rw [Query.verdict, (respond_table hverdict).1, hcarries.data]
    exact feed.scannedTable_render hplatform.opens hplatform.closes lineEnd q.engineVersion
  have hrefresh : q.refresh platform config (c, input.report c) = sendRefresh config resource
      (feed.table platform) (input.report c).calls q.state.provider := by
    unfold Query.refresh
    rw [htable]
    exact congrArg (fun r => sendRefresh config r _ _ _) hstanding.resource_eq
  obtain ⟨hsent, hhanded⟩ := @handed_feed platform _ _ hfeed config _ hstanding.ready
    hstanding.named _ hserves.calls
  have hspeaks := sendRefresh_speaks (hsilent c) hsent
  rw [hhanded, ← hrefresh] at hspeaks
  cases @handleMessage_cases platform config (c, input.report c) q with
  | faulted _ hno _ _ _ _ => cases hverdict.symm.trans hno
  | rejected hno _ _ _ _ => cases hverdict.symm.trans hno
  | undefined _ _ hfst _ _ _ => cases hfst.symm.trans hok
  | accepted _ _ _ _ _ hprovider _ =>
    rw [hprovider]
    exact hspeaks

theorem mem_reported_of_serves {input : RoundInput}
    (hserves : Serves platform config t0 feed lineEnd c input) {pending : List Nat}
    (hc : c ∈ pending) : (c, input.report c) ∈ input.reported pending := by
  refine List.mem_map.mpr ⟨c, List.mem_filter.mpr ⟨List.mem_dedup.mpr hserves.reported, ?_⟩, rfl⟩
  rw [hserves.handle, Bool.and_true]
  exact List.contains_iff_mem.mpr hc

/-- What the sessions publish of a feed, between what they publish of the other connections. -/
def feedLanguage (platform : Platform) (resource : Resource) (feed : FeedFile) :
    Language Content :=
  ⊤ * {feed.contents platform resource} * ⊤

theorem queryRound_serves (hplatform : platform.Carries feed) (hfeed : Publishable resource feed)
    {input : RoundInput} (hserves : Serves platform config t0 feed lineEnd c input)
    (hsilent : input.Silent) {q : Query} (hc : c ∈ q.pending)
    (hstanding : Standing c resource provider q.state)
    (hok : (queryRound platform config flags t0 input q).1 = .ok ()) :
    provider.Speaks (feedLanguage platform resource feed)
      (queryRound platform config flags t0 input q).2.state.provider := by
  obtain ⟨htransfers, heq⟩ := queryRound_ok hok
  have hreceived : Receiving platform config t0 resource (feed.render lineEnd)
      ((q.transferred platform config flags t0 input).2.connections c) :=
    transfers_receiving hserves (prepare_receiving hplatform.reserve hserves.handle hc
      hstanding.resource_eq) htransfers
  have hmid : Standing c resource provider (q.transferred platform config flags t0 input).2 :=
    hstanding.transferred input
  -- the messages before and after the one of the connection
  obtain ⟨pre, post, hsplit⟩ := List.append_of_mem (mem_reported_of_serves hserves hc)
  have hnodup := reported_nodup input q.pending
  rw [hsplit, List.map_append, List.map_cons, List.nodup_append] at hnodup
  have hpre : ∀ message ∈ pre, message.1 ≠ c := fun message hm =>
    hnodup.2.2 message.1 (List.mem_map_of_mem hm) c List.mem_cons_self
  have hreport : ∀ message ∈ pre ++ (c, input.report c) :: post, Silent message.2.calls := by
    intro message hm
    rw [← hsplit] at hm
    exact silent_reported hsilent hm
  have hbefore := Faults.forEach_invariant (f := handleMessage platform config) (l := pre)
    (fun q : Query => Standing c resource provider q.state ∧
      Receiving platform config t0 resource (feed.render lineEnd) (q.state.connections c))
    (fun message hm q hq => by
      refine ⟨handleMessage_standing (hreport message (List.mem_append_left _ hm)) hq.1, ?_⟩
      rw [handleMessage_connections]
      dsimp only
      rw [if_neg (hpre message hm).symm]
      exact hq.2)
    (s := { q with
      state := (q.transferred platform config flags t0 input).2, engineVersion := [] })
    ⟨hmid, hreceived⟩
  rw [heq, hsplit, Faults.forEach_append] at hok ⊢
  cases hr : Faults.forEach (handleMessage platform config) pre { q with
      state := (q.transferred platform config flags t0 input).2, engineVersion := [] } with
  | mk r q' =>
    rw [hr] at hok hbefore
    cases r with
    | error e => cases hok
    | ok _ =>
      dsimp only at hok hbefore ⊢
      rcases Faults.forEach_cons_cases (handleMessage platform config) (c, input.report c) post q'
        with ⟨e, _, hend⟩ | ⟨hmessage, hrest⟩
      · rw [hend] at hok
        cases hok
      · have hfeedSpeaks := handleMessage_feed hplatform hfeed hserves hsilent hbefore.2 hbefore.1
          hmessage
        have hafter := Faults.forEach_invariant (f := handleMessage platform config) (l := post)
          (fun q : Query => Standing c resource
            (handleMessage platform config (c, input.report c) q').2.state.provider q.state)
          (fun message hm q hq => handleMessage_standing
            (hreport message (List.mem_append_right _ (List.mem_cons_of_mem _ hm))) hq)
          (s := (handleMessage platform config (c, input.report c) q').2)
          (by
            have hhead : Standing c resource provider
                (handleMessage platform config (c, input.report c) q').2.state :=
              handleMessage_standing (hsilent c) hbefore.1
            exact ⟨hhead.resource_eq, hhead.ready, hhead.named, (Provider.Speaks.of_same rfl).any⟩)
        rw [hrest]
        exact (hbefore.1.speaks.trans hfeedSpeaks).trans hafter.speaks

/-! ## The query -/

theorem Provider.Speaks.feed_any {q r : Provider}
    (h : provider.Speaks (feedLanguage platform resource feed) q) (h' : q.Speaks ⊤ r) :
    provider.Speaks (feedLanguage platform resource feed) r := by
  have hboth := h.trans h'
  rwa [feedLanguage, Words.mul_top_mul_top] at hboth

theorem Standing.from_here {p : State} (h : Standing c resource provider p) :
    Standing c resource p.provider p :=
  ⟨h.resource_eq, h.ready, h.named, (Provider.Speaks.of_same rfl).any⟩

/-- The rounds from the one in which the feed is delivered. -/
theorem queryRounds_serves (hplatform : platform.Carries feed) (hfeed : Publishable resource feed)
    {inputs : Nat → RoundInput} (hsilent : ∀ n, (inputs n).Silent) {retries n : Nat} {sleep : Int}
    (hserves : Serves platform config t0 feed lineEnd c (inputs n)) {q : Query}
    (hc : c ∈ q.pending) (hstanding : Standing c resource provider q.state)
    (hok : (queryRounds platform config flags t0 inputs retries sleep n q).1 = .ok ()) :
    provider.Speaks (feedLanguage platform resource feed)
      (queryRounds platform config flags t0 inputs retries sleep n q).2.state.provider := by
  have hround := fun h => @queryRound_serves platform config flags t0 resource c provider feed
    lineEnd hplatform hfeed (inputs n) hserves (hsilent n) q hc hstanding h
  have hkept : Standing c resource provider
      (queryRound platform config flags t0 (inputs n) q).2.state :=
    queryRound_standing (hsilent n) hstanding
  rcases queryRounds_cases platform config flags t0 inputs retries sleep n q with
    ⟨heq, _⟩ | ⟨hround_ok, _, heq⟩ | ⟨hround_ok, _, left, _, heq⟩
  · rw [heq] at hok ⊢
    exact hround hok
  · rw [heq]
    exact hround hround_ok
  · rw [heq]
    have hslept : Standing c resource
        (queryRound platform config flags t0 (inputs n) q).2.state.provider
        ((queryRound platform config flags t0 (inputs n) q).2.observe (.sleep sleep)).state :=
      hkept.from_here.quiet (quiet_observe _ (o := .sleep sleep) fun h => h)
    exact (hround hround_ok).feed_any (queryRounds_standing hsilent left _ _ hslept).speaks

/-- A connection that is pending in time is requested again. -/
theorem queryRounds_again {inputs : Nat → RoundInput} {left n : Nat} {sleep : Int} {q : Query}
    (hok : (queryRound platform config flags t0 (inputs n) q).1 = .ok ())
    (hc : c ∈ (queryRound platform config flags t0 (inputs n) q).2.pending)
    (htime : inTime config t0 (inputs n).clock = true) :
    queryRounds platform config flags t0 inputs (left + 1) sleep n q =
      queryRounds platform config flags t0 inputs left (nextSleep config sleep) (n + 1)
        ((queryRound platform config flags t0 (inputs n) q).2.observe (.sleep sleep)) := by
  have hloop := queryRounds.eq_def platform config flags t0 inputs (left + 1) sleep n q
  dsimp only at hloop
  cases hr : queryRound platform config flags t0 (inputs n) q with
  | mk r q' =>
    rw [hr] at hloop hok hc
    cases r with
    | error e => cases hok
    | ok _ =>
      have hne : ¬ q'.pending.isEmpty = true := by
        rw [List.isEmpty_iff]
        exact List.ne_nil_of_mem hc
      dsimp only at hloop
      rw [hloop, if_neg hne, if_pos htime]

/-- Any number of rounds that leave the connection pending come before. -/
theorem queryRounds_waits (hplatform : platform.Carries feed) (hfeed : Publishable resource feed)
    {inputs : Nat → RoundInput} (hsilent : ∀ n, (inputs n).Silent) {wait retries n : Nat}
    {sleep : Int} (hretries : wait ≤ retries)
    (hbefore : ∀ m < n + wait, n ≤ m →
      Unanswered c (inputs m) ∧ inTime config t0 (inputs m).clock = true)
    (hserves : Serves platform config t0 feed lineEnd c (inputs (n + wait))) {q : Query}
    (hc : c ∈ q.pending) (hstanding : Standing c resource provider q.state)
    (hok : (queryRounds platform config flags t0 inputs retries sleep n q).1 = .ok ()) :
    provider.Speaks (feedLanguage platform resource feed)
      (queryRounds platform config flags t0 inputs retries sleep n q).2.state.provider := by
  induction wait generalizing retries sleep n q with
  | zero => exact queryRounds_serves hplatform hfeed hsilent hserves hc hstanding hok
  | succ wait ih =>
    obtain ⟨hunanswered, htime⟩ := hbefore n (by omega) (Nat.le_refl n)
    obtain ⟨left, rfl⟩ : ∃ left, retries = left + 1 := ⟨retries - 1, by omega⟩
    have hround : (queryRound platform config flags t0 (inputs n) q).1 = .ok () := by
      rcases queryRounds_cases platform config flags t0 inputs (left + 1) sleep n q with
        ⟨heq, _⟩ | ⟨hround, _⟩ | ⟨hround, _⟩
      · exact heq ▸ hok
      · exact hround
      · exact hround
    have hpending := queryRound_unanswered hunanswered hc hround
    have hkept : Standing c resource provider
        (queryRound platform config flags t0 (inputs n) q).2.state :=
      queryRound_standing (hsilent n) hstanding
    rw [queryRounds_again hround hpending htime] at hok ⊢
    rw [show n + (wait + 1) = n + 1 + wait by omega] at hbefore hserves
    exact ih (by omega) (fun m hm hle => hbefore m hm (by omega)) hserves hpending
      (hkept.quiet (quiet_observe _ (o := .sleep sleep) fun h => h)) hok

/-- A feed that is delivered before the retries are used up is published as it was written by
every session that may send, and by no other. -/
theorem feed_published (hplatform : platform.Carries feed) {p : State} (hc : c < p.count)
    (hready : p.provider.Ready (p.connections c).resource) (hnamed : p.provider.streams.Named)
    (hfeed : Publishable (p.connections c).resource feed) {input : QueryInput}
    (hsilent : ∀ n, (input.rounds n).Silent) {n : Nat}
    (hretries : n ≤ (atol config.retryCount).toNat)
    (hbefore : ∀ m < n,
      Unanswered c (input.rounds m) ∧ inTime config input.t0 (input.rounds m).clock = true)
    (hserves : Serves platform config input.t0 feed lineEnd c (input.rounds n))
    (hok : (httpPsychQuery platform config flags input p).1 = .ok ()) :
    p.provider.Speaks (feedLanguage platform (p.connections c).resource feed)
      (httpPsychQuery platform config flags input p).2.provider := by
  have hstart : Standing c (p.connections c).resource p.provider p :=
    ⟨rfl, hready, hnamed, (Provider.Speaks.of_same rfl).any⟩
  rw [← Nat.zero_add n] at hserves
  have hrounds := @queryRounds_waits platform config flags input.t0 _ c _ feed lineEnd hplatform
    hfeed input.rounds hsilent n _ 0 (firstSleep config) hretries
    (fun m hm _ => hbefore m (by omega)) hserves
    { state := p, pending := List.range p.count } (List.mem_range.mpr hc) hstart
  unfold httpPsychQuery at hok ⊢
  cases hr : queryRounds platform config flags input.t0 input.rounds
      (atol config.retryCount).toNat (firstSleep config) 0
      { state := p, pending := List.range p.count } with
  | mk r q =>
    rw [hr] at hok hrounds
    cases r with
    | error e => cases hok
    | ok _ => exact hrounds rfl

end Rounds

/-! ## A feed in the second round -/

/-- The sample state after the login of its session. -/
def loggedInState : State :=
  { sampleState with
    provider := (sampleState.provider.processEvents [(0, .loginResponse .open .ok {})]).2 }

/-- A round that brings the sample feed in two chunks. -/
def servingRound : RoundInput where
  first := [.data 0 ((sampleFeedFile.render .crlf).take 40)]
  further := [.data 0 ((sampleFeedFile.render .crlf).drop 40)]
  order := [0]
  report := fun _ => { transfer := sampleTransfer }

/-- The server says first that the file is not modified. -/
def servedQuery : QueryInput where
  t0 := 1336080000000000
  t1 := 1336080000000000
  rounds n := if n = 0 then { order := [0], report := fun _ => { transfer := notModified } }
    else servingRound

theorem sampleFeedFile_publishable : Publishable sampleResource sampleFeedFile where
  label := by
    intro name hname
    obtain rfl : "Sector".toList = name := Option.some.inj hname
    decide
  dated := by decide

set_option maxRecDepth 10000 in
theorem servingRound_serves : Serves boostPlatform retryingConfig servedQuery.t0 sampleFeedFile .crlf
    0 servingRound where
  handle := rfl
  reported := List.mem_singleton_self 0
  body := by
    show ((sampleFeedFile.render .crlf).take 40 ++ []) ++
      ((sampleFeedFile.render .crlf).drop 40 ++ []) = _
    rw [List.append_nil, List.append_nil, List.take_append_drop]
  status := rfl
  contentType := ⟨_, rfl, by decide⟩
  atLeast := by decide
  atMost := by decide
  filetime := Or.inr fun _ _ => rfl
  headers := by simp [servingRound, Callback.renders]
  times := by
    intro _
    decide
  calls := fun _ => ⟨fun _ => rfl, rfl, fun _ => rfl⟩

theorem loggedInState_grows : sampleState.provider.Grows loggedInState.provider :=
  processEvents_grows _ _

theorem sample_feed_published :
    loggedInState.provider.sessions.map Session.isMuted = [false] ∧
      loggedInState.provider.Speaks (feedLanguage boostPlatform sampleResource sampleFeedFile)
        (httpPsychQuery boostPlatform retryingConfig timerFlags servedQuery
          loggedInState).2.provider := by
  have hready : sampleState.provider.Ready sampleResource :=
    create_ready 1 (List.mem_singleton_self _)
  have hok : (httpPsychQuery boostPlatform retryingConfig timerFlags servedQuery
      loggedInState).1 = .ok () := by decide +kernel
  refine ⟨by decide, ?_⟩
  refine @feed_published boostPlatform retryingConfig timerFlags 0 sampleFeedFile .crlf
    ⟨boostPlatform_readsTime _, boostPlatform_readsTime _, fun _ n => Nat.le_refl n⟩ loggedInState
    (by decide) (hready.of_grows loggedInState_grows)
    ((create_named 1 [sampleResource]).of_same loggedInState_grows.streams)
    sampleFeedFile_publishable servedQuery ?_ 1 (by decide) ?_ servingRound_serves hok
  · intro n c k i
    unfold servedQuery
    dsimp only
    split <;> rfl
  · intro m hm
    obtain rfl : m = 0 := by omega
    exact ⟨Or.inr (Or.inr (by decide)), by decide⟩

end Psych
