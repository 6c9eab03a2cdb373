import Psych.Library.Emplace
import Psych.Model.Config
import Psych.Rfa.SessionFacts

/-!
# The provider

`provider_t`: the sessions, the item streams with one token for each session, and `Send`,
which gives a message to the sessions one after another. RFA events are handled by
another thread, so events may come before the turn of each session (`SessionCall`).

* `Grows`: nothing takes from a provider what its sessions have done.
* `WellFormed`: what `Init` establishes (`create_wellFormed`). Every session has its OMM
  provider and a place in the token vector of every stream. What a well-formed provider does
  is defined (`processEvents_ok`, `send_error`).
-/

namespace Psych

/-- What became of a message on its turn. -/
inductive Delivery where
  /-- The session was muted. -/
  | dropped
  | submitted
  /-- The session was not muted, and the submission threw. -/
  | threw
deriving DecidableEq

structure Turn where
  session : Nat
  message : Message
  delivery : Delivery
deriving DecidableEq

structure Provider where
  sessions : List Session
  streams : Streams := {}
  /-- `PROVIDER_PC_MSGS_SENT`. -/
  msgsSent : BitVec 32 := 0
  /-- The turns taken, newest first; not in the source. -/
  turns : List Turn := []

/-! ## Item streams -/

/-- `CreateItemStream` for a RIC that has no stream yet; every session is still muted, so
no token is generated. -/
def Streams.createItemStream (sessions : Nat) (streams : Streams) (ric : Text) : Streams :=
  if (streams.directory.lookup ric).isSome then streams
  else
    { stream := streams.stream ++ [{ rfaName := ric, token := List.replicate sessions none }],
      directory := streams.directory ++ [(ric, streams.stream.length)] }

/-- The RICs of a resource, one for each item. -/
def Resource.rics (resource : Resource) : List Text := resource.items.map fun item => item.2.1

theorem Resource.ric_mem {resource : Resource} {sector ric topic : Text}
    (h : resource.items.lookup sector = some (ric, topic)) : ric ∈ resource.rics :=
  List.mem_map.mpr ⟨_, Emplace.mem_of_lookup h, rfl⟩

/-- The streams `Init` creates for the published instruments. -/
def Streams.create (sessions : Nat) (resources : List Resource) : Streams :=
  (resources.flatMap Resource.rics).foldl (Streams.createItemStream sessions) {}

/-- The provider after `Init`. -/
def Provider.create (sessions : Nat) (resources : List Resource) : Provider where
  sessions := (List.range sessions).map fun i => .created i true fun _ => 0
  streams := .create sessions resources

/-- The stream of a RIC. -/
def Streams.find (streams : Streams) (ric : Text) : Option (Nat × ItemStream) :=
  match streams.directory.lookup ric with
  | none => none
  | some i => (streams.stream[i]?).map fun stream => (i, stream)

/-! ## Events and sends -/

/-- An event of the `i`th session. -/
def Provider.processEvent (e : Nat × RfaEvent) (p : Provider) : Except Fault Unit × Provider :=
  match p.sessions[e.1]? with
  | none => (.ok (), p)
  | some session =>
    let r := Psych.processEvent e.2 (session, p.streams)
    (r.1, { p with sessions := p.sessions.set e.1 r.2.1, streams := r.2.2 })

def Provider.processEvents (events : List (Nat × RfaEvent)) (p : Provider) :
    Except Fault Unit × Provider :=
  Faults.forEach Provider.processEvent events p

/-- What happens when the turn of a session comes: the events handled just before, and
whether RFA takes the message. -/
structure SessionCall where
  events : List (Nat × RfaEvent) := []
  submit : Bool := true

def delivery (session : Session) (r : Except Fault Unit) : Delivery :=
  if session.isMuted then .dropped
  else
    match r with
    | .ok _ => .submitted
    | .error _ => .threw

/-- The `i`th session is given the message. -/
def Provider.giveTo (stream : Nat) (message : Message) (submit : Bool) (i : Nat) (p : Provider) :
    Except Fault Unit × Provider :=
  match p.sessions[i]?, (p.streams.stream[stream]?).bind (fun s => s.token[i]?) with
  | some session, some token =>
    let r := session.send submit message token
    (r.1, { p with
      sessions := p.sessions.set i r.2,
      turns := ⟨i, message, delivery session r.1⟩ :: p.turns })
  -- `item_stream->token[i]` outside the vector is undefined
  | _, _ => (.error .undefined, p)

/-- The turn of the `i`th session. -/
def Provider.sendOn (stream : Nat) (message : Message) (call : Nat → SessionCall) (i : Nat)
    (p : Provider) : Except Fault Unit × Provider :=
  match p.processEvents (call i).events with
  | (.error e, p) => (.error e, p)
  | (.ok (), p) => p.giveTo stream message (call i).submit i

/-- `Send`: an exception of one session leaves the loop. -/
def Provider.send (stream : Nat) (message : Message) (call : Nat → SessionCall) (p : Provider) :
    Except Fault Unit × Provider :=
  match Faults.forEach (Provider.sendOn stream message call) (List.range p.sessions.length) p with
  | (.error e, p) => (.error e, p)
  | (.ok (), p) => (.ok (), { p with msgsSent := p.msgsSent + 1 })

/-! ## Nothing is taken back -/

/-- A session later on. -/
structure Session.Grows (s t : Session) : Prop where
  instanceId : t.instanceId = s.instanceId
  ommProvider : t.ommProvider = s.ommProvider
  history : s.history <:+ t.history

theorem Session.Grows.refl (s : Session) : s.Grows s := ⟨rfl, rfl, List.suffix_refl _⟩

theorem Session.Grows.trans {s t u : Session} (h : s.Grows t) (h' : t.Grows u) : s.Grows u :=
  ⟨h'.instanceId.trans h.instanceId, h'.ommProvider.trans h.ommProvider,
    h.history.trans h'.history⟩

theorem send_grows (ok : Bool) (message : Message) (token : Token) (s : Session) :
    s.Grows (s.send ok message token).2 := by
  unfold Session.send Session.submit
  split_ifs
  · exact .refl s
  · exact .refl s
  · exact ⟨rfl, rfl, List.suffix_cons _ _⟩
  · exact .refl s

/-- A provider later on. -/
structure Provider.Grows (p q : Provider) : Prop where
  streams : SameStreams p.streams q.streams
  length : q.sessions.length = p.sessions.length
  session : ∀ {i : Nat} {s : Session}, p.sessions[i]? = some s →
    ∃ t, q.sessions[i]? = some t ∧ s.Grows t
  turns : p.turns <:+ q.turns

theorem Provider.Grows.refl (p : Provider) : p.Grows p :=
  ⟨.refl _, rfl, fun h => ⟨_, h, .refl _⟩, List.suffix_refl _⟩

theorem Provider.Grows.trans {p q r : Provider} (h : p.Grows q) (h' : q.Grows r) : p.Grows r := by
  refine ⟨h.streams.trans h'.streams, h'.length.trans h.length, fun hs => ?_,
    h.turns.trans h'.turns⟩
  obtain ⟨t, ht, hst⟩ := h.session hs
  obtain ⟨u, hu, htu⟩ := h'.session ht
  exact ⟨u, hu, hst.trans htu⟩

/-- One session is replaced by a later one. -/
theorem grows_set {p q : Provider} {i : Nat} {s t : Session} (hi : p.sessions[i]? = some s)
    (hst : s.Grows t) (hsessions : q.sessions = p.sessions.set i t)
    (hstreams : SameStreams p.streams q.streams) (hturns : p.turns <:+ q.turns) : p.Grows q := by
  refine ⟨hstreams, by rw [hsessions, List.length_set], fun {j u} hj => ?_, hturns⟩
  obtain ⟨hlt, _⟩ := List.getElem?_eq_some_iff.mp hi
  rw [hsessions, List.getElem?_set]
  by_cases hij : i = j
  · subst hij
    rw [hi] at hj
    cases hj
    exact ⟨t, by simp [hlt], hst⟩
  · exact ⟨u, by simpa [hij] using hj, .refl u⟩

theorem processEvent_grows (e : Nat × RfaEvent) (p : Provider) : p.Grows (p.processEvent e).2 := by
  unfold Provider.processEvent
  cases hs : p.sessions[e.1]? with
  | none => exact .refl p
  | some session =>
    have hframe := processEvent_frame e.2 (session, p.streams)
    exact grows_set hs ⟨hframe.instanceId, hframe.ommProvider, hframe.history⟩ rfl hframe.streams
      (List.suffix_refl _)

theorem processEvents_grows (events : List (Nat × RfaEvent)) (p : Provider) :
    p.Grows (p.processEvents events).2 :=
  Faults.forEach_rel Provider.Grows .refl (fun _ _ _ h h' => h.trans h') processEvent_grows events p

theorem giveTo_grows (stream : Nat) (message : Message) (submit : Bool) (i : Nat) (p : Provider) :
    p.Grows (p.giveTo stream message submit i).2 := by
  unfold Provider.giveTo
  split
  · rename_i session token hs _
    exact grows_set hs (send_grows submit message token session) rfl (.refl _)
      (List.suffix_cons _ _)
  · exact .refl p

theorem sendOn_grows (stream : Nat) (message : Message) (call : Nat → SessionCall) (i : Nat)
    (p : Provider) : p.Grows (p.sendOn stream message call i).2 := by
  have hevents := processEvents_grows (call i).events p
  unfold Provider.sendOn
  split <;> rename_i heq <;> rw [heq] at hevents
  · exact hevents
  · exact hevents.trans (giveTo_grows stream message _ i _)

theorem send_grows_provider (stream : Nat) (message : Message) (call : Nat → SessionCall)
    (p : Provider) : p.Grows (p.send stream message call).2 := by
  have hloop := Faults.forEach_rel Provider.Grows .refl (fun _ _ _ h h' => h.trans h')
    (sendOn_grows stream message call) (List.range p.sessions.length) p
  unfold Provider.send
  split <;> rename_i heq <;> rw [heq] at hloop
  · exact hloop
  · exact hloop.trans ⟨.refl _, rfl, fun h => ⟨_, h, .refl _⟩, List.suffix_refl _⟩

/-! ## Turns -/

/-- A message that is recorded as submitted is in the history of its session. -/
def Turn.done (turn : Turn) (p : Provider) : Prop :=
  turn.delivery = .submitted → ∃ s token, p.sessions[turn.session]? = some s ∧
    .item turn.message token ∈ s.history

theorem Turn.done_of_grows {turn : Turn} {p q : Provider} (h : p.Grows q) (hp : turn.done p) :
    turn.done q := by
  intro hd
  obtain ⟨s, token, hs, hmem⟩ := hp hd
  obtain ⟨t, ht, hst⟩ := h.session hs
  exact ⟨t, token, ht, hst.history.subset hmem⟩

theorem send_delivery (submit : Bool) (message : Message) (token : Token) (session : Session) :
    let r := session.send submit message token
    (delivery session r.1 = .submitted → .item message token ∈ r.2.history) ∧
    (r.1 = .ok () ↔ delivery session r.1 ≠ .threw) := by
  unfold Session.send Session.submit delivery
  cases session.isMuted <;> cases session.ommProvider <;> cases submit <;>
    simp [Session.bump, Session.record]

/-- A turn is recorded, as what it came to, or there was no session or no token. -/
theorem giveTo_cases (stream : Nat) (message : Message) (submit : Bool) (i : Nat) (p : Provider) :
    (∃ d, (p.giveTo stream message submit i).2.turns = ⟨i, message, d⟩ :: p.turns ∧
      Turn.done ⟨i, message, d⟩ (p.giveTo stream message submit i).2 ∧
      ((p.giveTo stream message submit i).1 = .ok () ↔ d ≠ .threw)) ∨
    p.giveTo stream message submit i = (.error .undefined, p) := by
  unfold Provider.giveTo
  split
  · rename_i session token hs _
    obtain ⟨hdone, hok⟩ := send_delivery submit message token session
    refine Or.inl ⟨_, rfl, fun hd => ?_, hok⟩
    obtain ⟨hlt, _⟩ := List.getElem?_eq_some_iff.mp hs
    exact ⟨_, token, by simp [hlt], hdone hd⟩
  · exact Or.inr rfl

theorem processEvents_turns (events : List (Nat × RfaEvent)) (p : Provider) :
    (p.processEvents events).2.turns = p.turns := by
  refine (Faults.forEach_rel (fun p q : Provider => q.turns = p.turns) (fun _ => rfl)
    (fun _ _ _ h h' => h'.trans h) (fun e p => ?_) events p)
  unfold Provider.processEvent
  split <;> rfl

/-- Every recorded turn came to what it is recorded as. -/
def Provider.Faithful (p : Provider) : Prop := ∀ turn ∈ p.turns, turn.done p

theorem faithful_of_grows {p q : Provider} (h : p.Grows q) (hturns : q.turns = p.turns)
    (hp : p.Faithful) : q.Faithful := by
  intro turn hturn
  rw [hturns] at hturn
  exact Turn.done_of_grows h (hp turn hturn)

theorem giveTo_faithful (stream : Nat) (message : Message) (submit : Bool) (i : Nat)
    {p : Provider} (hp : p.Faithful) : (p.giveTo stream message submit i).2.Faithful := by
  have hgrows := giveTo_grows stream message submit i p
  rcases giveTo_cases stream message submit i p with ⟨d, hturns, hdone, _⟩ | heq
  · intro turn hturn
    rw [hturns] at hturn
    rcases List.mem_cons.mp hturn with rfl | hturn
    · exact hdone
    · exact Turn.done_of_grows hgrows (hp turn hturn)
  · rw [heq]
    exact hp

theorem sendOn_faithful (stream : Nat) (message : Message) (call : Nat → SessionCall) (i : Nat)
    {p : Provider} (hp : p.Faithful) : (p.sendOn stream message call i).2.Faithful := by
  have hevents := faithful_of_grows (processEvents_grows (call i).events p)
    (processEvents_turns (call i).events p) hp
  unfold Provider.sendOn
  split <;> rename_i heq <;> rw [heq] at hevents
  · exact hevents
  · exact giveTo_faithful stream message _ i hevents

theorem send_faithful (stream : Nat) (message : Message) (call : Nat → SessionCall)
    {p : Provider} (hp : p.Faithful) : (p.send stream message call).2.Faithful := by
  have hloop := Faults.forEach_invariant Provider.Faithful (l := List.range p.sessions.length)
    (fun i _ q hq => sendOn_faithful stream message call i hq) hp
  unfold Provider.send
  split <;> rename_i heq <;> rw [heq] at hloop
  · exact hloop
  · exact hloop

/-- The `i`th session had its turn for the message, and nothing was thrown. -/
def Provider.gave (p : Provider) (message : Message) (i : Nat) : Prop :=
  ∃ turn ∈ p.turns, turn.session = i ∧ turn.message = message ∧ turn.delivery ≠ .threw

theorem gave_of_suffix {p q : Provider} {message : Message} {i : Nat} (h : p.turns <:+ q.turns)
    (hp : p.gave message i) : q.gave message i := by
  obtain ⟨turn, hturn, hrest⟩ := hp
  exact ⟨turn, h.subset hturn, hrest⟩

theorem sendOn_gave {stream : Nat} {message : Message} {call : Nat → SessionCall} {i : Nat}
    {p : Provider} (hok : (p.sendOn stream message call i).1 = .ok ()) :
    (p.sendOn stream message call i).2.gave message i := by
  unfold Provider.sendOn at hok ⊢
  split at hok
  · cases hok
  · rename_i q _
    rcases giveTo_cases stream message (call i).submit i q with ⟨d, hturns, _, hd⟩ | hundefined
    · exact ⟨⟨i, message, d⟩, by rw [hturns]; exact List.mem_cons_self, rfl, rfl, hd.mp hok⟩
    · rw [hundefined] at hok
      cases hok

/-- After a send without a fault every session had its turn. -/
theorem send_gave {stream : Nat} {message : Message} {call : Nat → SessionCall} {p : Provider}
    (hok : (p.send stream message call).1 = .ok ()) {i : Nat} (hi : i < p.sessions.length) :
    (p.send stream message call).2.gave message i := by
  unfold Provider.send at hok ⊢
  split at hok
  · cases hok
  · rename_i q heq
    have hcovers := Faults.forEach_covers (l := List.range p.sessions.length) (s := p)
      (P := fun i (q : Provider) => q.gave message i)
      (fun _ y q h => gave_of_suffix (sendOn_grows stream message call y q).turns h)
      (fun _ _ => sendOn_gave) (by rw [heq])
    rw [heq] at hcovers
    exact hcovers i (List.mem_range.mpr hi)

/-! ## Well-formed providers -/

structure Provider.WellFormed (p : Provider) : Prop where
  session : ∀ {i : Nat} {s : Session}, p.sessions[i]? = some s →
    s.instanceId = i ∧ s.ommProvider = true
  token : ∀ stream ∈ p.streams.stream, stream.token.length = p.sessions.length

theorem wellFormed_of_grows {p q : Provider} (h : p.Grows q) (hp : p.WellFormed) :
    q.WellFormed := by
  refine ⟨fun {i t} ht => ?_, fun stream hstream => ?_⟩
  · have hlt : i < p.sessions.length := by
      rw [← h.length]
      exact (List.getElem?_eq_some_iff.mp ht).1
    obtain ⟨u, hu, hgrows⟩ := h.session (List.getElem?_eq_getElem hlt)
    rw [ht] at hu
    cases hu
    have hs := hp.session (List.getElem?_eq_getElem hlt)
    exact ⟨hgrows.instanceId.trans hs.1, hgrows.ommProvider.trans hs.2⟩
  · obtain ⟨before, hbefore, heq⟩ := h.streams.mem hstream
    simp only [ItemStream.shape, Prod.mk.injEq] at heq
    rw [← heq.2.2, h.length]
    exact hp.token before hbefore

theorem WellFormed.placed {p : Provider} (hp : p.WellFormed) {i : Nat} {s : Session}
    (hs : p.sessions[i]? = some s) : placed (s, p.streams) := by
  obtain ⟨hid, homm⟩ := hp.session hs
  refine ⟨homm, fun stream hstream => ?_⟩
  rw [hp.token stream hstream, hid]
  exact (List.getElem?_eq_some_iff.mp hs).1

theorem processEvents_ok (events : List (Nat × RfaEvent)) {p : Provider} (hp : p.WellFormed) :
    (p.processEvents events).1 = .ok () ∧ (p.processEvents events).2.WellFormed := by
  refine Faults.forEach_ok Provider.WellFormed (fun e _ q hq => ?_) hp
  refine ⟨?_, wellFormed_of_grows (processEvent_grows e q) hq⟩
  unfold Provider.processEvent
  cases hs : q.sessions[e.1]? with
  | none => rfl
  | some session => exact processEvent_ok e.2 (WellFormed.placed hq hs)

theorem Session.send_error {s : Session} (homm : s.ommProvider = true) (ok : Bool)
    (message : Message) (token : Token) :
    ∀ e, (s.send ok message token).1 = .error e → e = .invalidUsage ∧ ok = false := by
  unfold Session.send Session.submit
  intro e he
  cases hm : s.isMuted <;> cases ok <;> simp_all

theorem giveTo_error {stream : Nat} {message : Message} {submit : Bool} {i : Nat} {p : Provider}
    (hp : p.WellFormed) (hi : i < p.sessions.length) (hstream : stream < p.streams.stream.length) :
    ∀ e, (p.giveTo stream message submit i).1 = .error e → e = .invalidUsage ∧ submit = false := by
  have hsession := List.getElem?_eq_getElem hi
  have hitem := List.getElem?_eq_getElem hstream
  have htoken : i < (p.streams.stream[stream]).token.length := by
    rw [hp.token _ (List.getElem_mem hstream)]
    exact hi
  unfold Provider.giveTo
  rw [hsession, hitem]
  simp only [Option.bind_some, List.getElem?_eq_getElem htoken]
  exact Session.send_error (hp.session hsession).2 _ _ _

theorem sendOn_error {stream : Nat} {message : Message} {call : Nat → SessionCall} {i : Nat}
    {p : Provider} (hp : p.WellFormed) (hi : i < p.sessions.length)
    (hstream : stream < p.streams.stream.length) :
    ∀ e, (p.sendOn stream message call i).1 = .error e →
      e = .invalidUsage ∧ (call i).submit = false := by
  obtain ⟨hok, hwf⟩ := processEvents_ok (call i).events hp
  have hgrows := processEvents_grows (call i).events p
  unfold Provider.sendOn
  split <;> rename_i heq <;> rw [heq] at hok hwf hgrows
  · cases hok
  · apply giveTo_error hwf (hgrows.length ▸ hi)
    have hlen := congrArg List.length hgrows.streams.shape
    simp only [List.length_map] at hlen
    exact hlen ▸ hstream

/-- The faults of a send are exceptions of RFA. -/
theorem send_error {stream : Nat} {message : Message} {call : Nat → SessionCall} {p : Provider}
    (hp : p.WellFormed) (hstream : stream < p.streams.stream.length) :
    ∀ e, (p.send stream message call).1 = .error e →
      e = .invalidUsage ∧ ∃ i, (call i).submit = false := by
  have hloop := Faults.forEach_error (f := Provider.sendOn stream message call)
    (l := List.range p.sessions.length)
    (E := fun e => e = .invalidUsage ∧ ∃ i, (call i).submit = false) (fun q => p.Grows q)
    (fun i hi q hq => ⟨fun e he => ?_, hq.trans (sendOn_grows stream message call i q)⟩) (.refl p)
  · unfold Provider.send
    intro e he
    split at he
    · rename_i heq
      rw [heq] at hloop
      exact hloop e (by simpa using he)
    · cases he
  · have hlen := congrArg List.length hq.streams.shape
    simp only [List.length_map] at hlen
    obtain ⟨hinvalid, hsubmit⟩ := sendOn_error (wellFormed_of_grows hq hp)
      (hq.length ▸ List.mem_range.mp hi) (hlen ▸ hstream) e he
    exact ⟨hinvalid, i, hsubmit⟩

/-- A turn that faults is recorded as one that threw. -/
theorem sendOn_threw {stream : Nat} {message : Message} {call : Nat → SessionCall} {i : Nat}
    {p : Provider} (hp : p.WellFormed) {e : Fault}
    (he : (p.sendOn stream message call i).1 = .error e) :
    e = .undefined ∨ ⟨i, message, .threw⟩ ∈ (p.sendOn stream message call i).2.turns := by
  have hevents := (processEvents_ok (call i).events hp).1
  unfold Provider.sendOn at he ⊢
  split at he <;> rename_i q heq
  · rw [heq] at hevents
    cases hevents
  · rcases giveTo_cases stream message (call i).submit i q with ⟨d, hturns, _, hd⟩ | hundefined
    · right
      rw [hturns]
      cases d with
      | threw => exact List.mem_cons_self
      | dropped | submitted =>
        rw [hd.mpr (by simp)] at he
        cases he
    · rw [hundefined] at he
      exact Or.inl (Except.error.inj he).symm

/-- A send that faults ended with the turn of a session that threw; the sessions before it
had their turns. -/
theorem send_threw {stream : Nat} {message : Message} {call : Nat → SessionCall} {p : Provider}
    (hp : p.WellFormed) {e : Fault} (he : (p.send stream message call).1 = .error e)
    (hne : e ≠ .undefined) : ∃ j, ⟨j, message, .threw⟩ ∈ (p.send stream message call).2.turns ∧
      ∀ i < j, (p.send stream message call).2.gave message i := by
  have hrun := Faults.forEach_prefix (f := Provider.sendOn stream message call)
    (l := List.range p.sessions.length)
    (I := fun pre q => p.Grows q ∧ ∀ i ∈ pre, q.gave message i)
    (F := fun e q => e ≠ .undefined → ∃ j, ⟨j, message, .threw⟩ ∈ q.turns ∧
      ∀ i < j, q.gave message i)
    (fun pre i post q _ hq hok => by
      have hgrows := sendOn_grows stream message call i q
      refine ⟨hq.1.trans hgrows, fun i' hi' => ?_⟩
      rcases List.mem_append.mp hi' with hi' | hi'
      · exact gave_of_suffix hgrows.turns (hq.2 i' hi')
      · rw [List.mem_singleton.mp hi']
        exact sendOn_gave hok)
    (fun pre i post q e hsplit hq he hne => by
      have hgrows := sendOn_grows stream message call i q
      refine ⟨i, (sendOn_threw (wellFormed_of_grows hq.1 hp) he).resolve_left hne, ?_⟩
      intro i' hi'
      refine gave_of_suffix hgrows.turns (hq.2 i' ?_)
      rw [(Faults.range_split hsplit).1]
      exact List.mem_range.mpr hi')
    (s := p) ⟨.refl p, by simp⟩
  unfold Provider.send at he ⊢
  rcases hrun with ⟨hok, _⟩ | ⟨e', he', hthrew⟩
  · split at he <;> rename_i heq
    · rw [heq] at hok
      cases hok
    · cases he
  · split at he <;> rename_i heq <;> rw [heq] at he' hthrew
    · cases he
      cases he'
      exact hthrew hne
    · cases he'

/-! ## The provider after `Init` -/

/-- Streams with a token for each session, and a directory that leads to them. -/
structure Streams.Fit (sessions : Nat) (streams : Streams) : Prop where
  token : ∀ stream ∈ streams.stream, stream.token.length = sessions
  directory : ∀ {ric : Text} {i : Nat}, streams.directory.lookup ric = some i →
    i < streams.stream.length

theorem createItemStream_fit {sessions : Nat} {streams : Streams} (h : streams.Fit sessions)
    (ric : Text) : (streams.createItemStream sessions ric).Fit sessions := by
  unfold Streams.createItemStream
  split
  · exact h
  · refine ⟨fun stream hstream => ?_, fun {name i} hi => ?_⟩
    · rcases List.mem_append.mp hstream with hold | hnew
      · exact h.token stream hold
      · rw [List.mem_singleton.mp hnew]
        exact List.length_replicate
    · rw [List.lookup_append] at hi
      rw [List.length_append, List.length_singleton]
      rcases Option.or_eq_some_iff.mp hi with hold | ⟨_, hnew⟩
      · exact Nat.lt_succ_of_lt (h.directory hold)
      · rw [List.lookup_cons] at hnew
        split at hnew
        · cases hnew
          exact Nat.lt_succ_self _
        · cases hnew

theorem createItemStream_lookup (sessions : Nat) (streams : Streams) (ric name : Text) :
    ((streams.createItemStream sessions ric).directory.lookup name).isSome =
      ((streams.directory.lookup name).isSome || name == ric) := by
  unfold Streams.createItemStream
  split
  · rename_i hric
    by_cases hname : name = ric
    · simp [hname, hric]
    · simp [hname]
  · by_cases hname : name = ric
    · simp [hname, List.lookup_append]
    · have hne : (name == ric) = false := beq_false_of_ne hname
      simp [List.lookup_append, List.lookup_cons, hne]

theorem foldl_createItemStream (sessions : Nat) (rics : List Text) (streams : Streams)
    (h : streams.Fit sessions) :
    (rics.foldl (Streams.createItemStream sessions) streams).Fit sessions ∧
      ∀ name, name ∈ rics ∨ (streams.directory.lookup name).isSome →
        ((rics.foldl (Streams.createItemStream sessions) streams).directory.lookup name).isSome := by
  induction rics generalizing streams with
  | nil => exact ⟨h, fun name hname => by simpa using hname⟩
  | cons ric rics ih =>
    obtain ⟨hfit, hall⟩ := ih _ (createItemStream_fit h ric)
    refine ⟨hfit, fun name hname => hall name ?_⟩
    rw [createItemStream_lookup, List.mem_cons] at *
    rcases hname with (hname | hname) | hname
    · exact Or.inr (by simp [hname])
    · exact Or.inl hname
    · exact Or.inr (by simp [hname])

theorem create_wellFormed (sessions : Nat) (resources : List Resource) :
    (Provider.create sessions resources).WellFormed := by
  obtain ⟨hfit, _⟩ := foldl_createItemStream sessions (resources.flatMap Resource.rics) {}
    ⟨by simp, by simp⟩
  refine ⟨fun {i s} hs => ?_, fun stream hstream => ?_⟩
  · simp only [Provider.create, List.getElem?_map, Option.map_eq_some_iff] at hs
    obtain ⟨j, hj, rfl⟩ := hs
    have hij : i = j := by
      obtain ⟨_, hget⟩ := List.getElem?_eq_some_iff.mp hj
      rw [← hget, List.getElem_range]
    exact ⟨hij.symm, rfl⟩
  · rw [hfit.token stream hstream]
    simp [Provider.create]

theorem find_eq_some_iff {streams : Streams} {ric : Text} {i : Nat} {stream : ItemStream} :
    streams.find ric = some (i, stream) ↔
      streams.directory.lookup ric = some i ∧ streams.stream[i]? = some stream := by
  unfold Streams.find
  cases hi : streams.directory.lookup ric with
  | none => simp
  | some j =>
    rw [Option.map_eq_some_iff]
    constructor
    · rintro ⟨a, ha, heq⟩
      cases heq
      exact ⟨rfl, ha⟩
    · rintro ⟨hj, ha⟩
      cases hj
      exact ⟨stream, ha, rfl⟩

theorem find_lt {streams : Streams} {ric : Text} {i : Nat} {stream : ItemStream}
    (h : streams.find ric = some (i, stream)) : i < streams.stream.length :=
  (List.getElem?_eq_some_iff.mp (find_eq_some_iff.mp h).2).1

/-- Every item of the resource has its stream. -/
def Provider.Covers (p : Provider) (resource : Resource) : Prop :=
  ∀ ric ∈ resource.rics, ∃ i stream, p.streams.find ric = some (i, stream)

theorem create_covers (sessions : Nat) {resources : List Resource} {resource : Resource}
    (h : resource ∈ resources) : (Provider.create sessions resources).Covers resource := by
  obtain ⟨hfit, hall⟩ := foldl_createItemStream sessions (resources.flatMap Resource.rics) {}
    ⟨by simp, by simp⟩
  intro ric hric
  obtain ⟨i, hi⟩ := Option.isSome_iff_exists.mp
    (hall ric (Or.inl (List.mem_flatMap.mpr ⟨resource, h, hric⟩)))
  exact ⟨i, _, find_eq_some_iff.mpr ⟨hi, List.getElem?_eq_getElem (hfit.directory hi)⟩⟩

/-- A stream keeps its place. -/
theorem find_of_same {streams streams' : Streams} (h : SameStreams streams streams') {ric : Text}
    {i : Nat} {stream : ItemStream} (hfind : streams.find ric = some (i, stream)) :
    ∃ stream', streams'.find ric = some (i, stream') ∧ stream'.shape = stream.shape := by
  obtain ⟨hi, hstream⟩ := find_eq_some_iff.mp hfind
  have hshape := h.getElem? i
  rw [hstream, Option.map_some, Option.map_eq_some_iff] at hshape
  obtain ⟨stream', hstream', heq⟩ := hshape
  exact ⟨stream', find_eq_some_iff.mpr ⟨by rw [h.directory]; exact hi, hstream'⟩, heq⟩

theorem covers_of_grows {p q : Provider} (h : p.Grows q) {resource : Resource}
    (hp : p.Covers resource) : q.Covers resource := by
  intro ric hric
  obtain ⟨i, stream, hfind⟩ := hp ric hric
  obtain ⟨stream', hfind', _⟩ := find_of_same h.streams hfind
  exact ⟨i, stream', hfind'⟩

end Psych
