import Psych.Rfa.Setup
import Psych.Rfa.TokenRuns

/-!
# Sessions that are half made

A session of which a step of the set-up failed stays with the provider. It is muted, no login
response reaches it without a handle, and a handle comes from a provider, so nothing that happens
later goes through its null pointers (`Upheld.never_undefined`). The set-up itself does: it uses the
session without a look at what acquiring it returned (`nullFree_iff`).
-/

namespace Psych

/-! ## After the set-up -/

/-- The sessions, none of which has seen an event. -/
def ProviderSetup.provider (setup : ProviderSetup) : Provider where
  sessions := setup.sessions.zipIdx.map fun e => .created e.2 e.1.ommProvider e.1.stats

/-- What an input comes to. -/
def TokenInput.outcome (input : TokenInput) (p : Provider) : Except Fault Unit :=
  match input with
  | .create name tokens => (p.createItemStream name tokens).1
  | .expire _ => .ok ()
  | .event i e => (p.processEvent (i, e)).1
  | .give stream message submit i => (p.giveTo stream message submit i).1

/-- A login response comes to the handle of a login; a message is sent on a stream there is, to
one of the sessions. -/
def TokenInput.Possible (setup : ProviderSetup) (p : Provider) (input : TokenInput) : Prop :=
  match input with
  | .create .. | .expire _ => True
  | .event i (.loginResponse ..) => ∃ t, setup.sessions[i]? = some t ∧ t.itemHandle = true
  | .event _ _ => True
  | .give stream _ _ i => stream < p.streams.stream.length ∧ i < p.sessions.length

/-- No call goes through a null pointer, neither in `Init` nor, where that returned true, in what
happens later. -/
structure NullFree (verified : Bool) (calls : List SetupCalls) : Prop where
  init : (providerInit verified calls).1 ≠ .error .undefined
  later : (providerInit verified calls).1 = .ok true → ∀ inputs : List TokenInput,
    Runs.Guarded (fun p input => input.apply p)
      (TokenInput.Possible (providerInit verified calls).2)
      (providerInit verified calls).2.provider inputs →
    ∀ p ∈ inputs.scanl (fun p input => input.apply p) (providerInit verified calls).2.provider,
      ∀ input : TokenInput, input.Possible (providerInit verified calls).2 p →
        input.outcome p ≠ .error .undefined

/-! ## The invariant -/

/-- The sessions are those that were set up, and one that is unmuted has its provider. -/
structure Upheld (setup : ProviderSetup) (p : Provider) : Prop where
  session : ∀ {i : Nat} {s : Session}, p.sessions[i]? = some s →
    s.instanceId = i ∧ ∃ t, setup.sessions[i]? = some t ∧ s.ommProvider = t.ommProvider
  unmuted : ∀ {i : Nat} {s : Session}, p.sessions[i]? = some s → s.isMuted = false →
    s.ommProvider = true
  size : ∀ stream ∈ p.streams.stream, stream.token.length = p.sessions.length

variable {setup : ProviderSetup} {p : Provider}

theorem upheld_provider (setup : ProviderSetup) : Upheld setup setup.provider := by
  have hstart : ∀ {i : Nat} {s : Session}, setup.provider.sessions[i]? = some s →
      ∃ t, setup.sessions[i]? = some t ∧ s = .created i t.ommProvider t.stats := by
    intro i s hs
    unfold ProviderSetup.provider at hs
    rw [List.getElem?_map, List.getElem?_zipIdx, Option.map_map, Option.map_eq_some_iff] at hs
    obtain ⟨t, ht, rfl⟩ := hs
    exact ⟨t, ht, by simp⟩
  refine ⟨fun hs => ?_, fun hs hunmuted => ?_, fun stream hstream => ?_⟩
  · obtain ⟨t, ht, rfl⟩ := hstart hs
    exact ⟨rfl, t, ht, rfl⟩
  · obtain ⟨t, _, rfl⟩ := hstart hs
    cases hunmuted
  · cases hstream

/-- What happens to an upheld provider leaves it upheld, if it unmutes only sessions with their
providers. -/
theorem Upheld.of_grows {q : Provider} (h : Upheld setup p) (hgrows : p.Grows q)
    (hunmuted : ∀ {i : Nat} {t : Session}, q.sessions[i]? = some t → t.isMuted = false →
      t.ommProvider = true) : Upheld setup q := by
  refine ⟨fun {i t} ht => ?_, hunmuted, fun stream hstream => ?_⟩
  · obtain ⟨s, hs, hst⟩ := hgrows.before ht
    obtain ⟨hid, u, hu, homm⟩ := h.session hs
    exact ⟨hst.instanceId.trans hid, u, hu, hst.ommProvider.trans homm⟩
  · obtain ⟨before, hbefore, hshape⟩ := hgrows.streams.mem hstream
    simp only [ItemStream.shape, Prod.mk.injEq] at hshape
    rw [← hshape.2.2, hgrows.length]
    exact h.size before hbefore

/-- The handle of a login comes from the provider of the session. -/
theorem Upheld.delivered (h : Upheld setup p) (hsetup : ∀ t ∈ setup.sessions, t.Sound) {i : Nat}
    {e : RfaEvent} (hpossible : TokenInput.Possible setup p (.event i e)) {s : Session}
    (hs : p.sessions[i]? = some s) : e.Delivered s := by
  cases e with
  | loginResponse =>
    obtain ⟨t, ht, hhandle⟩ := hpossible
    obtain ⟨_, t', ht', homm⟩ := h.session hs
    obtain rfl := Option.some.inj (ht.symm.trans ht')
    exact homm.trans (hsetup t (List.mem_of_getElem? ht) hhandle)
  | otherResponse | otherItemEvent | ommCmdError | otherEvent => trivial

/-! ## No input is undefined -/

theorem Upheld.event_ok (h : Upheld setup p) (hsetup : ∀ t ∈ setup.sessions, t.Sound) {i : Nat}
    {e : RfaEvent} (hpossible : TokenInput.Possible setup p (.event i e)) :
    (p.processEvent (i, e)).1 = .ok () := by
  unfold Provider.processEvent
  cases hs : p.sessions[i]? with
  | none => rfl
  | some s =>
    have hdelivered := h.delivered hsetup hpossible hs
    cases e with
    | loginResponse =>
      refine processEvent_ok _ ⟨hdelivered, fun stream hstream => ?_⟩
      rw [h.size stream hstream, (h.session hs).1]
      exact (List.getElem?_eq_some_iff.mp hs).1
    | otherResponse | otherItemEvent | ommCmdError | otherEvent => rfl

theorem createToken_error {tokens : Nat → Option Nat} {i : Nat} {s : List Session × List Token}
    (hunmuted : ∀ session, s.1[i]? = some session → session.isMuted = false →
      session.ommProvider = true) :
    ∀ e, (createToken tokens i s).1 = .error e → e = .invalidUsage := by
  intro e he
  unfold createToken at he
  cases hs : s.1[i]? with
  | none => simp [hs] at he
  | some session =>
    simp only [hs] at he
    cases hmuted : session.isMuted with
    | true => simp [hmuted] at he
    | false =>
      have homm := hunmuted session hs hmuted
      cases htoken : tokens i <;> simp_all

theorem Upheld.createItemStream_error (h : Upheld setup p) (name : Text)
    (tokens : Nat → Option Nat) :
    ∀ e, (p.createItemStream name tokens).1 = .error e → e = .invalidUsage := by
  have hloop := Faults.forEach_error (f := createToken tokens)
    (l := List.range p.sessions.length) (E := (· = .invalidUsage))
    (s := (p.sessions, List.replicate p.sessions.length none))
    (fun s => SameSessions p.sessions s.1 ∧ s.2.length = p.sessions.length)
    (fun i hi s hs => by
      refine ⟨createToken_error fun session hsession hunmuted => ?_, ?_⟩
      · obtain ⟨before, hbefore, hsame⟩ := hs.1.session hsession
        exact hsame.ommProvider.trans (h.unmuted hbefore (hsame.isMuted ▸ hunmuted))
      · have hcreated := (createToken_created tokens (hs.2 ▸ List.mem_range.mp hi)).1
        exact ⟨hs.1.trans hcreated.sessions, hcreated.length.trans hs.2⟩)
    ⟨.refl _, List.length_replicate⟩
  intro e he
  unfold Provider.createItemStream at he
  split at he <;> rename_i heq <;> rw [heq] at hloop
  · exact hloop e he
  · cases he

theorem Upheld.giveTo_error (h : Upheld setup p) {stream : Nat} {message : Message} {submit : Bool}
    {i : Nat} (hstream : stream < p.streams.stream.length) (hi : i < p.sessions.length) :
    ∀ e, (p.giveTo stream message submit i).1 = .error e → e = .invalidUsage := by
  have hs := List.getElem?_eq_getElem hi
  have htoken : i < p.streams.stream[stream].token.length := by
    rw [h.size _ (List.getElem_mem hstream)]
    exact hi
  unfold Provider.giveTo
  rw [hs, List.getElem?_eq_getElem hstream]
  simp only [Option.bind_some, List.getElem?_eq_getElem htoken]
  intro e he
  cases hmuted : p.sessions[i].isMuted with
  | true => simp [Session.send, hmuted] at he
  | false => exact (Session.send_error (h.unmuted hs hmuted) _ _ _ e he).1

/-- Nothing that can happen to an upheld provider goes through a null pointer. -/
theorem Upheld.never_undefined (h : Upheld setup p) (hsetup : ∀ t ∈ setup.sessions, t.Sound)
    {input : TokenInput} (hpossible : input.Possible setup p) :
    input.outcome p ≠ .error .undefined := by
  intro hundefined
  cases input with
  | create name tokens => cases h.createItemStream_error name tokens _ hundefined
  | expire => cases hundefined
  | event i e =>
    have hok := h.event_ok hsetup hpossible
    cases hok.symm.trans hundefined
  | give => cases h.giveTo_error hpossible.1 hpossible.2 _ hundefined

/-! ## Every input keeps the invariant -/

theorem Upheld.event (h : Upheld setup p) (hsetup : ∀ t ∈ setup.sessions, t.Sound) {i : Nat}
    {e : RfaEvent} (hpossible : TokenInput.Possible setup p (.event i e)) :
    Upheld setup (p.processEvent (i, e)).2 := by
  refine h.of_grows (processEvent_grows (i, e) p) fun {j t} ht hmuted => ?_
  unfold Provider.processEvent at ht
  cases hs : p.sessions[i]? with
  | none =>
    simp only [hs] at ht
    exact h.unmuted ht hmuted
  | some s =>
    simp only [hs] at ht
    rcases mem_set_cases ht with ⟨rfl, rfl⟩ | hsame
    · have htokens := @processEvent_tokens e (s, p.streams) (h.delivered hsetup hpossible hs)
      rcases htokens.unmuted hmuted with hbefore | hnow
      · exact (processEvent_frame e (s, p.streams)).ommProvider.trans (h.unmuted hs hbefore)
      · exact hnow.1
    · exact h.unmuted hsame hmuted

theorem Upheld.giveTo (h : Upheld setup p) (stream : Nat) (message : Message) (submit : Bool)
    (i : Nat) : Upheld setup (p.giveTo stream message submit i).2 := by
  refine h.of_grows (giveTo_grows stream message submit i p) fun {j t} ht hmuted => ?_
  unfold Provider.giveTo at ht
  split at ht
  · rename_i s token hs _
    rcases mem_set_cases ht with ⟨rfl, rfl⟩ | hsame
    · rcases send_cases submit message token s with heq | ⟨hunmuted, hsent⟩
      · rw [heq] at hmuted ⊢
        exact h.unmuted hs hmuted
      · have homm := h.unmuted hs hunmuted
        exact hsent.ommProvider.trans homm
    · exact h.unmuted hsame hmuted
  · exact h.unmuted ht hmuted

theorem Upheld.sameSessions (h : Upheld setup p) {l : List Session}
    (hl : SameSessions p.sessions l) : Upheld setup { p with sessions := l } := by
  refine ⟨fun ht => ?_, fun ht hmuted => ?_, fun stream hstream => ?_⟩
  · obtain ⟨s, hs, hsame⟩ := hl.session ht
    obtain ⟨hid, u, hu, homm⟩ := h.session hs
    exact ⟨hsame.instanceId.trans hid, u, hu, hsame.ommProvider.trans homm⟩
  · obtain ⟨s, hs, hsame⟩ := hl.session ht
    exact hsame.ommProvider.trans (h.unmuted hs (hsame.isMuted ▸ hmuted))
  · exact (h.size stream hstream).trans hl.length.symm

theorem Upheld.createItemStream (h : Upheld setup p) (name : Text) (tokens : Nat → Option Nat) :
    Upheld setup (p.createItemStream name tokens).2 := by
  obtain ⟨hcreated, _⟩ := createTokens_created tokens p.sessions
  unfold Provider.createItemStream
  split <;> rename_i s heq <;> rw [heq] at hcreated
  · exact h.sameSessions hcreated.sessions
  · have hsame := h.sameSessions hcreated.sessions
    refine ⟨hsame.session, hsame.unmuted, fun stream hstream => ?_⟩
    rcases List.mem_append.mp hstream with hold | hnew
    · exact hsame.size stream hold
    · rw [List.mem_singleton.mp hnew]
      calc s.2.length = p.sessions.length := hcreated.length.trans List.length_replicate
        _ = s.1.length := hcreated.sessions.length.symm

theorem Upheld.expire (h : Upheld setup p) (k : Nat) :
    Upheld setup { p with streams := p.streams.expire k } := by
  refine ⟨h.session, h.unmuted, fun stream hstream => ?_⟩
  obtain ⟨j, hj⟩ := List.mem_iff_getElem?.mp hstream
  rw [expire_getElem?] at hj
  obtain ⟨before, hbefore, rfl⟩ := Option.map_eq_some_iff.mp hj
  exact h.size before (List.mem_of_getElem? hbefore)

theorem Upheld.apply (hsetup : ∀ t ∈ setup.sessions, t.Sound) (p : Provider) (input : TokenInput)
    (h : Upheld setup p) (hpossible : input.Possible setup p) : Upheld setup (input.apply p) := by
  cases input with
  | create name tokens => exact h.createItemStream name tokens
  | expire k => exact h.expire k
  | event i e => exact h.event hsetup hpossible
  | give stream message submit i => exact h.giveTo stream message submit i

/-! ## The result -/

/-- No call goes through a null pointer exactly where `Init` ends before the second loop, or
every session was acquired. -/
theorem nullFree_iff (verified : Bool) (calls : List SetupCalls) :
    NullFree verified calls ↔ verified = false ∨ ∀ c ∈ calls, c.acquire = true := by
  rcases providerInit_cases verified calls with
    ⟨rfl, hinit⟩ | ⟨rfl, hall, hinit, hsetUp⟩ | ⟨rfl, hno, hinit⟩
  · refine iff_of_true ⟨?_, fun htrue => ?_⟩ (Or.inl rfl) <;> rw [hinit] at *
    · exact nofun
    · cases htrue
  · refine iff_of_true ⟨by rw [hinit]; exact nofun, fun _ inputs hinputs p hp input hinput => ?_⟩
      (Or.inr hall)
    have hupheld := hinputs.forall_scanl (Upheld (providerInit true calls).2)
      (Upheld.apply hsetUp.sessions) (upheld_provider _) p hp
    exact hupheld.never_undefined hsetUp.sessions hinput
  · refine iff_of_false (fun h => h.init hinit) fun h => ?_
    exact hno (h.resolve_left (by decide))

/-- The second of two sessions is not acquired. -/
theorem second_session_null :
    ¬ NullFree true [{ login := some ⟨14, 1⟩ }, { acquire := false, login := none }] :=
  fun h => h.init rfl

end Psych
