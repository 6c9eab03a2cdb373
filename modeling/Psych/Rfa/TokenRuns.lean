import Mathlib.Data.List.Nodup
import Psych.Rfa.LoginGate
import Psych.Rfa.Tokens

/-!
# Runs of item streams and sessions

Streams are created and expire, RFA events come to the sessions, and sessions are given messages
for streams they hold, in any order. In every state the entries of an unmuted session are set,
no token is in two places, and every message went out under a token that was generated for its
stream and its session (`tokens_sound`).
-/

namespace Psych

/-! ## Runs -/

/-- What happens to the provider and its sessions. -/
inductive TokenInput where
  /-- An item stream is created; the tokens generated for it. -/
  | create (name : Text) (tokens : Nat → Option Nat)
  | expire (stream : Nat)
  /-- An event of the `i`th session. -/
  | event (i : Nat) (e : RfaEvent)
  /-- The `i`th session is given a message for a stream. -/
  | give (stream : Nat) (message : Message) (submit : Bool) (i : Nat)

def TokenInput.apply (input : TokenInput) (p : Provider) : Provider :=
  match input with
  | .create name tokens => (p.createItemStream name tokens).2
  | .expire stream => { p with streams := p.streams.expire stream }
  | .event i e => (p.processEvent (i, e)).2
  | .give stream message submit i => (p.giveTo stream message submit i).2

/-- The tokens generated for an input, each with the stream and the session it is for. -/
def TokenInput.generated (input : TokenInput) (p : Provider) : List (Nat × Nat × Nat) :=
  match input with
  | .create _ tokens => (List.range p.sessions.length).filterMap fun i =>
      (tokens i).map fun t => (t, p.streams.stream.length, i)
  | .event i e => p.streams.directory.zipIdx.filterMap fun entry =>
      (e.itemToken entry.2).map fun t => (t, entry.1.2, i)
  | .expire _ | .give .. => []

/-- The provider, and the tokens that have been generated; those are not in the source. -/
structure TokenRun where
  provider : Provider
  issued : List (Nat × Nat × Nat) := []

/-- The sessions before the first login, each with its OMM provider or without. -/
def TokenRun.start (omm : List Bool) : TokenRun where
  provider := { sessions := omm.zipIdx.map fun e => .created e.2 e.1 fun _ => 0 }

def TokenRun.step (r : TokenRun) (input : TokenInput) : TokenRun where
  provider := input.apply r.provider
  issued := r.issued ++ input.generated r.provider

/-- The names of streams are distinct, login responses come to sessions that have registered for
them, and messages are sent on streams the sender holds, under their names. -/
def TokenInput.Ready (input : TokenInput) (p : Provider) : Prop :=
  match input with
  | .create name _ => p.streams.directory.lookup name = none
  | .expire _ => True
  | .event i e => ∀ s, p.sessions[i]? = some s → e.Delivered s
  | .give k message _ _ => ∀ stream, p.streams.stream[k]? = some stream →
      stream.live = true ∧ message.name = stream.rfaName

/-- `generateItemToken` returns fresh tokens. -/
structure TokenRun.Admissible (r : TokenRun) (input : TokenInput) : Prop where
  fresh : ((r.issued ++ input.generated r.provider).map Prod.fst).Nodup
  ready : input.Ready r.provider

/-- The message went out under a token that was generated for its stream and for the session. -/
def TokenRun.Owned (r : TokenRun) (i : Nat) (message : Message) (token : Token) : Prop :=
  ∃ t k, ∃ stream : ItemStream, token = some t ∧ (t, k, i) ∈ r.issued ∧
    r.provider.streams.stream[k]? = some stream ∧ stream.rfaName = message.name

/-- What the steps of an admissible run keep. -/
structure TokenInvariant (r : TokenRun) : Prop where
  instanceId : ∀ {i : Nat} {s : Session}, r.provider.sessions[i]? = some s → s.instanceId = i
  size : ∀ {k : Nat} {stream : ItemStream}, r.provider.streams.stream[k]? = some stream →
    stream.token.length = r.provider.sessions.length
  listed : ∀ {k : Nat} {stream : ItemStream}, r.provider.streams.stream[k]? = some stream →
    ∃ name, (name, k) ∈ r.provider.streams.directory
  unmuted : ∀ {i : Nat} {s : Session}, r.provider.sessions[i]? = some s → s.isMuted = false →
    s.ommProvider = true ∧ r.provider.streams.Supplied i
  own : ∀ {k i t}, r.provider.streams.tokenAt k i = some (some t) → (t, k, i) ∈ r.issued
  fresh : (r.issued.map Prod.fst).Nodup
  submitted : ∀ {i : Nat} {s : Session} {message token}, r.provider.sessions[i]? = some s →
    .item message token ∈ s.history → r.Owned i message token

theorem TokenRun.Owned.mono {r r' : TokenRun} {i : Nat} {message : Message} {token : Token}
    (h : r.Owned i message token) (hissued : r.issued ⊆ r'.issued)
    (hname : ∀ {k : Nat} {stream : ItemStream}, r.provider.streams.stream[k]? = some stream →
      ∃ stream' : ItemStream, r'.provider.streams.stream[k]? = some stream' ∧
        stream'.rfaName = stream.rfaName) : r'.Owned i message token := by
  obtain ⟨t, k, stream, htoken, hmem, hstream, heq⟩ := h
  obtain ⟨stream', hstream', heq'⟩ := hname hstream
  exact ⟨t, k, stream', htoken, hissued hmem, hstream', heq'.trans heq⟩

/-- More tokens have been generated. -/
theorem TokenInvariant.issue {r : TokenRun} (h : TokenInvariant r) {new : List (Nat × Nat × Nat)}
    (hfresh : ((r.issued ++ new).map Prod.fst).Nodup) :
    TokenInvariant { r with issued := r.issued ++ new } where
  instanceId := h.instanceId
  size := h.size
  listed := h.listed
  unmuted := h.unmuted
  own := fun htoken => List.mem_append_left _ (h.own htoken)
  fresh := hfresh
  submitted := fun hs hitem =>
    (h.submitted hs hitem).mono (List.subset_append_left _ _) fun hstream => ⟨_, hstream, rfl⟩

theorem Provider.Grows.before {p q : Provider} (h : p.Grows q) {i : Nat} {t : Session}
    (ht : q.sessions[i]? = some t) : ∃ s, p.sessions[i]? = some s ∧ s.Grows t := by
  have hlt : i < p.sessions.length := by
    rw [← h.length]
    exact (List.getElem?_eq_some_iff.mp ht).1
  have hs := List.getElem?_eq_getElem hlt
  obtain ⟨t', ht', hgrows⟩ := h.session hs
  obtain rfl := Option.some.inj (ht.symm.trans ht')
  exact ⟨_, hs, hgrows⟩

/-- What a session keeps of the invariant when the provider grows: it was unmuted before or has
its tokens now, and an item message that it has submitted it had submitted before, or owns. -/
structure SessionAfter (r : TokenRun) (q : Provider) (i : Nat) (t : Session) : Prop where
  unmuted : t.isMuted = false →
    (∃ s, r.provider.sessions[i]? = some s ∧ s.isMuted = false) ∨
      (t.ommProvider = true ∧ q.streams.Supplied i)
  items : ∀ {message token}, .item message token ∈ t.history →
    (∃ s, r.provider.sessions[i]? = some s ∧ .item message token ∈ s.history) ∨
      r.Owned i message token

theorem TokenInvariant.of_grows {r : TokenRun} (h : TokenInvariant r) {q : Provider}
    (hgrows : r.provider.Grows q)
    (hsession : ∀ {i : Nat} {t : Session}, q.sessions[i]? = some t → SessionAfter r q i t)
    (hsupplied : ∀ {i}, r.provider.streams.Supplied i → q.streams.Supplied i)
    (hown : ∀ {k i t}, q.streams.tokenAt k i = some (some t) → (t, k, i) ∈ r.issued) :
    TokenInvariant { r with provider := q } := by
  refine ⟨fun {i t} ht => ?_, fun {k stream} hstream => ?_, fun {k stream} hstream => ?_,
    fun {i t} ht hunmuted => ?_, hown, h.fresh, fun {i t message token} ht hitem => ?_⟩
  · obtain ⟨s, hs, hst⟩ := hgrows.before ht
    exact hst.instanceId.trans (h.instanceId hs)
  · obtain ⟨before, hbefore, _, hlength, _⟩ := hgrows.streams.live hstream
    exact hlength.symm.trans ((h.size hbefore).trans hgrows.length.symm)
  · obtain ⟨before, hbefore, _⟩ := hgrows.streams.live hstream
    obtain ⟨name, hname⟩ := h.listed hbefore
    exact ⟨name, by rw [hgrows.streams.directory]; exact hname⟩
  · obtain ⟨s', hs', hst⟩ := hgrows.before ht
    rcases (hsession ht).unmuted hunmuted with ⟨s, hs, hbefore⟩ | hnow
    · obtain rfl := Option.some.inj (hs.symm.trans hs')
      obtain ⟨homm, hall⟩ := h.unmuted hs hbefore
      exact ⟨hst.ommProvider.trans homm, hsupplied hall⟩
    · exact hnow
  · have howned : r.Owned i message token := by
      rcases (hsession ht).items hitem with ⟨s, hs, hbefore⟩ | howned
      · exact h.submitted hs hbefore
      · exact howned
    refine howned.mono (List.Subset.refl _) fun {k stream} hstream => ?_
    have hshape := hgrows.streams.getElem? k
    rw [hstream, Option.map_some] at hshape
    obtain ⟨stream', hstream', heq⟩ := Option.map_eq_some_iff.mp hshape
    exact ⟨stream', hstream', congrArg Prod.fst heq⟩

/-- A session that has not moved. -/
theorem sessionAfter_same {r : TokenRun} {q : Provider} {i : Nat} {t : Session}
    (h : r.provider.sessions[i]? = some t) : SessionAfter r q i t :=
  ⟨fun hunmuted => Or.inl ⟨t, h, hunmuted⟩, fun hitem => Or.inl ⟨t, h, hitem⟩⟩

theorem mem_set_cases {l : List Session} {i j : Nat} {s t : Session}
    (h : (l.set i s)[j]? = some t) : (j = i ∧ t = s) ∨ l[j]? = some t := by
  by_cases hij : i = j
  · subst hij
    have hlt : i < l.length := by simpa using (List.getElem?_eq_some_iff.mp h).1
    rw [List.getElem?_set_self hlt] at h
    exact Or.inl ⟨rfl, (Option.some.inj h).symm⟩
  · rw [List.getElem?_set_ne hij] at h
    exact Or.inr h

theorem event_invariant {r : TokenRun} (h : TokenInvariant r) {i : Nat} {e : RfaEvent}
    (hdelivered : ∀ s, r.provider.sessions[i]? = some s → e.Delivered s)
    (hissued : TokenInput.generated (.event i e) r.provider ⊆ r.issued) :
    TokenInvariant { r with provider := (r.provider.processEvent (i, e)).2 } := by
  have hgrows := processEvent_grows (i, e) r.provider
  unfold Provider.processEvent at hgrows ⊢
  cases hs : r.provider.sessions[i]? with
  | none => exact h
  | some s =>
    simp only [hs] at hgrows ⊢
    obtain ⟨hregenerated, hunmuted, hitems⟩ :=
      @processEvent_tokens e (s, r.provider.streams) (hdelivered s hs)
    have hid : (s, r.provider.streams).1.instanceId = i := h.instanceId hs
    rw [hid] at hregenerated hunmuted
    refine h.of_grows hgrows (fun {j t} ht => ?_) hregenerated.supplied fun {k j token} htoken => ?_
    · rcases mem_set_cases ht with ⟨rfl, rfl⟩ | hsame
      · refine ⟨fun hm => ?_, fun hitem => Or.inl ⟨s, hs, hitems hitem⟩⟩
        rcases hunmuted hm with hbefore | hnow
        · exact Or.inl ⟨s, hs, hbefore⟩
        · exact Or.inr hnow
      · exact sessionAfter_same hsame
    · rcases hregenerated.origin htoken with hold | ⟨rfl, name, n, hentry, hnew⟩
      · exact h.own hold
      · apply hissued
        exact List.mem_filterMap.mpr ⟨((name, k), n), hentry, by rw [hnew]; rfl⟩

/-- An unmuted session submits under the token of the stream, which is its own. -/
theorem give_invariant {r : TokenRun} (h : TokenInvariant r) {k : Nat} {message : Message}
    {submit : Bool} {i : Nat} (hheld : ∀ stream,
      r.provider.streams.stream[k]? = some stream →
      stream.live = true ∧ message.name = stream.rfaName) :
    TokenInvariant { r with provider := (r.provider.giveTo k message submit i).2 } := by
  have hgrows := giveTo_grows k message submit i r.provider
  unfold Provider.giveTo at hgrows ⊢
  cases hs : r.provider.sessions[i]? with
  | none => exact h
  | some s =>
    cases htoken : (r.provider.streams.stream[k]?).bind fun stream => stream.token[i]? with
    | none => exact h
    | some token =>
      simp only [hs, htoken] at hgrows ⊢
      refine h.of_grows hgrows (fun {j t} ht => ?_) id h.own
      rcases mem_set_cases ht with ⟨rfl, rfl⟩ | hsame
      · rcases send_cases submit message token s with heq | ⟨hunmuted, hsent⟩
        · rw [heq]
          exact sessionAfter_same hs
        · refine ⟨fun _ => Or.inl ⟨s, hs, hunmuted⟩, fun {message' token'} hitem => ?_⟩
          rw [hsent.history] at hitem
          rcases List.mem_cons.mp hitem with heq | hbefore
          · cases heq
            obtain ⟨stream, hstream, _⟩ := Option.bind_eq_some_iff.mp htoken
            obtain ⟨hlive, hname⟩ := hheld stream hstream
            obtain ⟨name, hlisted⟩ := h.listed hstream
            obtain ⟨n, hn⟩ := (h.unmuted hs hunmuted).2 (name, k) hlisted stream hstream hlive
            obtain rfl : some n = token := Option.some.inj (hn.symm.trans htoken)
            exact Or.inr ⟨n, k, stream, rfl, h.own hn, hstream, hname.symm⟩
          · exact Or.inl ⟨s, hs, hbefore⟩
      · exact sessionAfter_same hsame

theorem expire_getElem? (k : Nat) (streams : Streams) (j : Nat) :
    (streams.expire k).stream[j]? = (streams.stream[j]?).map fun stream =>
      { stream with live := if k = j then false else stream.live } := by
  unfold Streams.expire
  rw [List.getElem?_modify]
  cases streams.stream[j]? with
  | none => rfl
  | some stream => by_cases hk : k = j <;> simp [hk]

theorem tokenAt_expire (k : Nat) (streams : Streams) (j i : Nat) :
    (streams.expire k).tokenAt j i = streams.tokenAt j i := by
  unfold Streams.tokenAt
  rw [expire_getElem?]
  cases streams.stream[j]? <;> rfl

theorem expire_invariant {r : TokenRun} (h : TokenInvariant r) (k : Nat) :
    TokenInvariant
      { r with provider := { r.provider with streams := r.provider.streams.expire k } } := by
  have hbefore : ∀ {j : Nat} {stream : ItemStream},
      (r.provider.streams.expire k).stream[j]? = some stream →
      ∃ before, r.provider.streams.stream[j]? = some before ∧ before.token = stream.token ∧
        (stream.live = true → before.live = true) := by
    intro j stream hstream
    rw [expire_getElem?] at hstream
    obtain ⟨before, hbefore, rfl⟩ := Option.map_eq_some_iff.mp hstream
    refine ⟨before, hbefore, rfl, fun hlive => ?_⟩
    by_cases hk : k = j <;> simp_all
  refine ⟨h.instanceId, fun {j stream} hstream => ?_, fun {j stream} hstream => ?_,
    fun {i s} hs hunmuted => ?_, fun {j i t} htoken => ?_, h.fresh,
    fun {i s message token} hs hitem =>
      (h.submitted hs hitem).mono (List.Subset.refl _) fun {j stream} hstream => ?_⟩
  · obtain ⟨before, hj, htoken, _⟩ := hbefore hstream
    exact htoken ▸ h.size hj
  · obtain ⟨before, hj, _⟩ := hbefore hstream
    exact h.listed hj
  · obtain ⟨homm, hsupplied⟩ := h.unmuted hs hunmuted
    refine ⟨homm, fun entry hentry stream hstream hlive => ?_⟩
    obtain ⟨before, hj, _, hlive'⟩ := hbefore hstream
    obtain ⟨t, ht⟩ := hsupplied entry hentry before hj (hlive' hlive)
    exact ⟨t, (tokenAt_expire ..).trans ht⟩
  · exact h.own ((tokenAt_expire ..).symm.trans htoken)
  · refine ⟨{ stream with live := if k = j then false else stream.live }, ?_, rfl⟩
    exact (expire_getElem? ..).trans (by rw [hstream]; rfl)

theorem mem_concat_cases {α : Type} {l : List α} {x y : α} {k : Nat}
    (h : (l ++ [x])[k]? = some y) : l[k]? = some y ∨ (k = l.length ∧ y = x) := by
  rcases Nat.lt_or_ge k l.length with hlt | hge
  · rw [List.getElem?_append_left hlt] at h
    exact Or.inl h
  · rw [List.getElem?_append_right hge] at h
    obtain ⟨hk, rfl⟩ := List.getElem?_eq_some_iff.mp h
    have hzero : k - l.length = 0 := by simpa using hk
    exact Or.inr ⟨by omega, by simp [hzero]⟩

theorem TokenInvariant.sameSessions {r : TokenRun} (h : TokenInvariant r) {l : List Session}
    (hl : SameSessions r.provider.sessions l) :
    TokenInvariant { r with provider := { r.provider with sessions := l } } := by
  refine ⟨fun ht => ?_, fun hstream => (h.size hstream).trans hl.length.symm, h.listed,
    fun ht hunmuted => ?_, h.own, h.fresh, fun ht hitem => ?_⟩
  · obtain ⟨s, hs, hsame⟩ := hl.session ht
    exact hsame.instanceId.trans (h.instanceId hs)
  · obtain ⟨s, hs, hsame⟩ := hl.session ht
    obtain ⟨homm, hsupplied⟩ := h.unmuted hs (hsame.isMuted ▸ hunmuted)
    exact ⟨hsame.ommProvider.trans homm, hsupplied⟩
  · obtain ⟨s, hs, hsame⟩ := hl.session ht
    exact h.submitted hs (hsame.history ▸ hitem)

/-- A stream is added that has a token of its own for every unmuted session. -/
theorem TokenInvariant.append {r : TokenRun} (h : TokenInvariant r) {name : Text}
    {token : List Token} (hnew : r.provider.streams.directory.lookup name = none)
    (hlength : token.length = r.provider.sessions.length)
    (hset : ∀ {i : Nat} {s : Session}, r.provider.sessions[i]? = some s → s.isMuted = false →
      ∃ t, token[i]? = some (some t))
    (hown : ∀ {i t : Nat}, token[i]? = some (some t) →
      (t, r.provider.streams.stream.length, i) ∈ r.issued) :
    TokenInvariant { r with provider := { r.provider with streams :=
      { stream := r.provider.streams.stream ++ [{ rfaName := name, token := token }]
        directory := Emplace.emplace r.provider.streams.directory
          (name, r.provider.streams.stream.length) } } } := by
  have hdirectory : Emplace.emplace r.provider.streams.directory
      (name, r.provider.streams.stream.length) =
      r.provider.streams.directory ++ [(name, r.provider.streams.stream.length)] := by
    simp [Emplace.emplace, hnew]
  rw [hdirectory]
  refine ⟨h.instanceId, fun hstream => ?_, fun {k stream} hstream => ?_,
    fun {i s} hs hunmuted => ?_, fun {k i t} htoken => ?_, h.fresh, fun hs hitem =>
      (h.submitted hs hitem).mono (List.Subset.refl _) fun {k stream} hstream => ?_⟩
  · rcases mem_concat_cases hstream with hold | ⟨_, rfl⟩
    · exact h.size hold
    · exact hlength
  · rcases mem_concat_cases hstream with hold | ⟨rfl, _⟩
    · obtain ⟨name', hname'⟩ := h.listed hold
      exact ⟨name', List.mem_append_left _ hname'⟩
    · exact ⟨name, List.mem_append_right _ (List.mem_singleton_self _)⟩
  · obtain ⟨homm, hsupplied⟩ := h.unmuted hs hunmuted
    refine ⟨homm, fun entry _ stream hstream hlive => ?_⟩
    rcases mem_concat_cases hstream with hold | ⟨hk, rfl⟩
    · obtain ⟨name', hname'⟩ := h.listed hold
      obtain ⟨t, ht⟩ := hsupplied _ hname' stream hold hlive
      unfold Streams.tokenAt at ht ⊢
      rw [hold] at ht
      exact ⟨t, by rw [hstream]; exact ht⟩
    · obtain ⟨t, ht⟩ := hset hs hunmuted
      unfold Streams.tokenAt
      exact ⟨t, by rw [hstream]; exact ht⟩
  · obtain ⟨stream, hstream, htoken'⟩ := Option.bind_eq_some_iff.mp htoken
    rcases mem_concat_cases hstream with hold | ⟨rfl, rfl⟩
    · apply h.own
      unfold Streams.tokenAt
      rw [hold]
      exact htoken'
    · exact hown htoken'
  · obtain ⟨hlt, _⟩ := List.getElem?_eq_some_iff.mp hstream
    exact ⟨stream, (List.getElem?_append_left hlt).trans hstream, rfl⟩

theorem create_invariant {r : TokenRun} (h : TokenInvariant r) {name : Text}
    {tokens : Nat → Option Nat} (hnew : r.provider.streams.directory.lookup name = none)
    (hissued : TokenInput.generated (.create name tokens) r.provider ⊆ r.issued) :
    TokenInvariant { r with provider := (r.provider.createItemStream name tokens).2 } := by
  obtain ⟨hcreated, hset⟩ := createTokens_created tokens r.provider.sessions
  unfold Provider.createItemStream
  split
  · rename_i heq
    rw [heq] at hcreated
    exact h.sameSessions hcreated.sessions
  · rename_i s heq
    rw [heq] at hcreated hset
    have hlength : s.2.length = s.1.length := by
      rw [hcreated.length, List.length_replicate, hcreated.sessions.length]
    refine (h.sameSessions hcreated.sessions).append hnew hlength (fun {i t} ht hunmuted => ?_)
      fun {i n} hn => ?_
    · obtain ⟨hlt, _⟩ := List.getElem?_eq_some_iff.mp ht
      exact hset rfl i (hcreated.sessions.length ▸ hlt) t ht hunmuted
    · have hlt : i < r.provider.sessions.length := by
        rw [← hcreated.sessions.length, ← hlength]
        exact (List.getElem?_eq_some_iff.mp hn).1
      rcases hcreated.origin hn with hold | htoken
      · rw [List.getElem?_replicate_of_lt hlt] at hold
        cases hold
      · apply hissued
        exact List.mem_filterMap.mpr ⟨i, List.mem_range.mpr hlt, by rw [htoken]; rfl⟩

theorem tokenStep_invariant (r : TokenRun) (input : TokenInput) (h : TokenInvariant r)
    (hinput : r.Admissible input) : TokenInvariant (r.step input) := by
  have hissue := h.issue hinput.fresh
  have hissued := List.subset_append_right r.issued (input.generated r.provider)
  cases input with
  | create name tokens => exact create_invariant hissue hinput.ready hissued
  | expire k => exact expire_invariant hissue k
  | event i e => exact event_invariant hissue hinput.ready hissued
  | give k message submit i => exact give_invariant hissue hinput.ready

theorem start_invariant (omm : List Bool) : TokenInvariant (.start omm) := by
  have hstart : ∀ {i : Nat} {s : Session}, (TokenRun.start omm).provider.sessions[i]? = some s →
      ∃ b, s = .created i b fun _ => 0 := by
    intro i s hs
    unfold TokenRun.start at hs
    rw [List.getElem?_map, List.getElem?_zipIdx] at hs
    cases hb : omm[i]? with
    | none => rw [hb] at hs; cases hs
    | some b =>
      rw [hb] at hs
      simp only [Option.map_some, Nat.zero_add] at hs
      exact ⟨b, (Option.some.inj hs).symm⟩
  refine ⟨fun hs => ?_, fun hstream => ?_, fun hstream => ?_, fun hs hunmuted => ?_,
    fun htoken => ?_, List.nodup_nil, fun hs hitem => ?_⟩
  · obtain ⟨b, rfl⟩ := hstart hs
    rfl
  · cases hstream
  · cases hstream
  · obtain ⟨b, rfl⟩ := hstart hs
    cases hunmuted
  · cases htoken
  · obtain ⟨b, rfl⟩ := hstart hs
    cases hitem

/-! ## The tokens in every state -/

/-- Every live stream of the directory has a place for each session and a token for each unmuted
one, no token is in two places, and item messages went out under tokens of their own. -/
structure TokenRun.Sound (r : TokenRun) : Prop where
  size : ∀ entry ∈ r.provider.streams.directory, ∀ stream : ItemStream,
    r.provider.streams.stream[entry.2]? = some stream → stream.live = true →
    stream.token.length = r.provider.sessions.length ∧
      ∀ s ∈ r.provider.sessions, s.instanceId < stream.token.length ∧
        (s.isMuted = false → ∃ t, stream.token[s.instanceId]? = some (some t))
  distinct : ∀ {k i k' i' t}, r.provider.streams.tokenAt k i = some (some t) →
    r.provider.streams.tokenAt k' i' = some (some t) → k = k' ∧ i = i'
  submitted : ∀ s ∈ r.provider.sessions, ∀ {message token}, .item message token ∈ s.history →
    r.Owned s.instanceId message token

theorem TokenInvariant.sound {r : TokenRun} (h : TokenInvariant r) : r.Sound := by
  refine ⟨fun entry hentry stream hstream hlive => ⟨h.size hstream, fun s hs => ?_⟩,
    fun {k i k' i' t} htoken htoken' => ?_, fun s hs message token hitem => ?_⟩
  · obtain ⟨i, hi⟩ := List.mem_iff_getElem?.mp hs
    rw [h.instanceId hi, h.size hstream]
    refine ⟨(List.getElem?_eq_some_iff.mp hi).1, fun hunmuted => ?_⟩
    obtain ⟨t, ht⟩ := (h.unmuted hi hunmuted).2 entry hentry stream hstream hlive
    unfold Streams.tokenAt at ht
    rw [hstream] at ht
    exact ⟨t, ht⟩
  · have heq := List.inj_on_of_nodup_map h.fresh (h.own htoken) (h.own htoken') rfl
    simp only [Prod.mk.injEq, true_and] at heq
    exact heq
  · obtain ⟨i, hi⟩ := List.mem_iff_getElem?.mp hs
    rw [h.instanceId hi]
    exact h.submitted hi hitem

/-- The tokens are sound in every state of every run, for any number of sessions. -/
theorem tokens_sound (omm : List Bool) {inputs : List TokenInput}
    (h : Runs.Guarded TokenRun.step TokenRun.Admissible (.start omm) inputs) :
    ∀ r ∈ inputs.scanl TokenRun.step (.start omm), r.Sound := fun r hr =>
  (h.forall_scanl TokenInvariant tokenStep_invariant (start_invariant omm) r hr).sound

/-- A login whose directory is sent, with one token for the only stream. -/
def sampleLogin : RfaEvent :=
  .loginResponse .open .ok { itemToken := fun n => if n = 0 then some 1 else none }

def sampleTokens : List TokenInput :=
  [.create "A".toList fun _ => none, .event 0 sampleLogin,
    .create "B".toList fun i => if i = 0 then some 2 else none,
    .give 1 ⟨0, "B".toList, [], [], none⟩ true 0, .expire 0]

theorem sample_tokens_sound :
    (sampleTokens.foldl TokenRun.step (.start [true, false])).Sound := by
  refine tokens_sound [true, false] ?_ _ (List.mem_of_getLast? List.getLast?_scanl)
  unfold sampleTokens
  simp only [Runs.guarded_cons, Runs.guarded_nil, and_true]
  refine ⟨⟨by decide, rfl⟩, ⟨by decide, fun s hs => ?_⟩, ⟨by decide, rfl⟩,
    ⟨by decide, fun stream hstream => ?_⟩, ⟨by decide, trivial⟩⟩
  · cases hs
    rfl
  · cases hstream
    decide

end Psych
