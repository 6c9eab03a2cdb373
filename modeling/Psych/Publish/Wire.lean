import Psych.Publish.FieldMap
import Psych.Library.Words

/-!
# What the sessions publish

A message that is handed over goes to every session, and a muted session drops it. `p.Speaks L q`
says of the provider before and after: every session that may send has published a word of `L` in
between, and no other session anything.

Where no RFA event comes between the turns (`Silent`), a refresh that ends without a fault makes each
session that may send publish what was handed over (`sendRefresh_speaks`).
-/

namespace Psych

/-! ## Words of contents -/

def SessionObs.content : SessionObs → Option Content
  | .item message _ => some message.content
  | .login .. | .directory => none

/-- The contents of the messages a session has submitted, oldest first. -/
def Session.published (s : Session) : List Content :=
  (s.history.filterMap SessionObs.content).reverse

/-- A session that has published a word of `L` since, if it may send, and nothing otherwise. -/
structure Session.Speaks (L : Language Content) (s t : Session) : Prop where
  isMuted : t.isMuted = s.isMuted
  published : ∃ new, t.published = s.published ++ new ∧
    (s.isMuted = true → new = []) ∧ (s.isMuted = false → new ∈ L)

structure Provider.Speaks (p : Provider) (L : Language Content) (q : Provider) : Prop where
  session : ∀ {i : Nat} {s : Session}, p.sessions[i]? = some s →
    ∃ t, q.sessions[i]? = some t ∧ s.Speaks L t

section Speaking

variable {L M : Language Content} {p q r : Provider}

theorem Session.Speaks.silent (s : Session) : s.Speaks 1 s :=
  ⟨rfl, [], (List.append_nil _).symm, fun _ => rfl, fun _ => Language.nil_mem_one⟩

theorem Session.Speaks.mono {s t : Session} (h : s.Speaks L t) (hle : ∀ word ∈ L, word ∈ M) :
    s.Speaks M t := by
  obtain ⟨hmuted, new, hnew, hnone, hword⟩ := h
  exact ⟨hmuted, new, hnew, hnone, fun hs => hle _ (hword hs)⟩

theorem Session.Speaks.any {s t : Session} (h : s.Speaks L t) : s.Speaks ⊤ t :=
  h.mono fun _ _ => trivial

theorem Session.Speaks.trans {s t u : Session} (h : s.Speaks L t) (h' : t.Speaks M u) :
    s.Speaks (L * M) u := by
  obtain ⟨hmuted, new, hnew, hnone, hword⟩ := h
  obtain ⟨hmuted', new', hnew', hnone', hword'⟩ := h'
  rw [hmuted] at hnone' hword'
  refine ⟨hmuted'.trans hmuted, new ++ new', by rw [hnew', hnew, List.append_assoc], ?_, ?_⟩
  · intro hs
    rw [hnone hs, hnone' hs, List.append_nil]
  · intro hs
    exact Language.mem_mul.mpr ⟨new, hword hs, new', hword' hs, rfl⟩

theorem Provider.Speaks.of_same (h : q.sessions = p.sessions) : p.Speaks 1 q :=
  ⟨fun {_ s} hs => ⟨s, h ▸ hs, .silent s⟩⟩

theorem Provider.Speaks.mono (h : p.Speaks L q) (hle : ∀ word ∈ L, word ∈ M) : p.Speaks M q := by
  refine ⟨fun {i s} hs => ?_⟩
  obtain ⟨t, ht, hst⟩ := h.session hs
  exact ⟨t, ht, hst.mono hle⟩

theorem Provider.Speaks.trans (h : p.Speaks L q) (h' : q.Speaks M r) : p.Speaks (L * M) r := by
  refine ⟨fun {i s} hs => ?_⟩
  obtain ⟨t, ht, hst⟩ := h.session hs
  obtain ⟨u, hu, htu⟩ := h'.session ht
  exact ⟨u, hu, hst.trans htu⟩

/-- Nothing is known of what is published, except that muted sessions are silent. -/
theorem Provider.Speaks.any (h : p.Speaks L q) : p.Speaks ⊤ q := h.mono fun _ _ => trivial

theorem Provider.Speaks.trans_any (h : p.Speaks ⊤ q) (h' : q.Speaks ⊤ r) : p.Speaks ⊤ r :=
  (h.trans h').any

theorem Provider.Speaks.word {new new' : List Content} (h : p.Speaks {new} q)
    (h' : q.Speaks {new'} r) : p.Speaks {new ++ new'} r :=
  (h.trans h').mono fun _ hword => Words.singleton_mul_singleton new new' ▸ hword

/-- One session is replaced by one that has spoken. -/
theorem speaks_set {i : Nat} {s t : Session} (hi : p.sessions[i]? = some s) (hst : s.Speaks L t)
    (hsessions : q.sessions = p.sessions.set i t) (hnil : [] ∈ L) : p.Speaks L q := by
  refine ⟨fun {j u} hu => ?_⟩
  obtain ⟨hlt, _⟩ := List.getElem?_eq_some_iff.mp hi
  rw [hsessions, List.getElem?_set]
  by_cases hij : i = j
  · subst hij
    rw [hi] at hu
    cases hu
    exact ⟨t, by simp [hlt], hst⟩
  · refine ⟨u, by simpa [hij] using hu, (Session.Speaks.silent u).mono ?_⟩
    intro word hword
    obtain rfl : word = [] := hword
    exact hnil

end Speaking

/-! ## One message -/

theorem send_speaks (ok : Bool) (message : Message) (token : Token) (s : Session) :
    s.Speaks ⊤ (s.send ok message token).2 ∧
      ((s.send ok message token).1 = .ok () →
        s.Speaks {[message.content]} (s.send ok message token).2) := by
  unfold Session.send Session.submit
  split_ifs with hmuted homm hok
  · refine ⟨(Session.Speaks.silent s).any, fun _ => ⟨rfl, [], ?_, fun _ => rfl, ?_⟩⟩
    · exact (List.append_nil _).symm
    · intro hs
      rw [hmuted] at hs
      cases hs
  · exact ⟨(Session.Speaks.silent s).any, fun h => by cases h⟩
  · have hspeaks : s.Speaks {[message.content]}
        ((s.record (.item message token)).bump .rfaMsgsSent) := by
      refine ⟨rfl, [message.content], ?_, fun hs => absurd hs hmuted, fun _ => rfl⟩
      show ((SessionObs.item message token :: s.history).filterMap
        SessionObs.content).reverse = _
      exact List.reverse_cons
    exact ⟨hspeaks.any, fun _ => hspeaks⟩
  · exact ⟨(Session.Speaks.silent s).any, fun h => by cases h⟩

variable {stream : Nat} {message : Message} {call : Nat → SessionCall}

theorem sendOn_of_silent {i : Nat} (hsilent : (call i).events = []) (p : Provider) :
    p.sendOn stream message call i = p.giveTo stream message (call i).submit i := by
  unfold Provider.sendOn Provider.processEvents
  rw [hsilent]
  rfl

theorem giveTo_speaks (stream : Nat) (message : Message) (submit : Bool) (i : Nat) (p : Provider) :
    p.Speaks ⊤ (p.giveTo stream message submit i).2 := by
  unfold Provider.giveTo
  split
  · rename_i session token hs _
    exact speaks_set hs (send_speaks submit message token session).1 rfl trivial
  · exact (Provider.Speaks.of_same rfl).any

/-- The turn of a session that ends without a fault. -/
theorem giveTo_published {submit : Bool} {i : Nat} {p : Provider}
    (hok : (p.giveTo stream message submit i).1 = .ok ()) :
    ∃ s t, p.sessions[i]? = some s ∧ s.Speaks {[message.content]} t ∧
      (p.giveTo stream message submit i).2.sessions = p.sessions.set i t := by
  unfold Provider.giveTo at hok ⊢
  split at hok
  · rename_i session token hs _
    exact ⟨session, _, hs, (send_speaks submit message token session).2 hok, rfl⟩
  · cases hok

/-- What a session publishes of a message by its turns so far. -/
def spokenBy (message : Message) (turns : List Nat) (i : Nat) : Language Content :=
  if i ∈ turns then {[message.content]} else 1

theorem send_speaks_any (hsilent : ∀ i, (call i).events = []) (p : Provider) :
    p.Speaks ⊤ (p.send stream message call).2 := by
  have hloop := Faults.forEach_rel (fun p q : Provider => p.Speaks ⊤ q)
    (fun p => (Provider.Speaks.of_same rfl).any) (fun _ _ _ h h' => h.trans_any h')
    (f := Provider.sendOn stream message call)
    (fun i p => by
      rw [sendOn_of_silent (hsilent i)]
      exact giveTo_speaks stream message (call i).submit i p)
    (List.range p.sessions.length) p
  unfold Provider.send
  split <;> rename_i q heq <;> rw [heq] at hloop
  · exact hloop
  · have hcount : q.Speaks 1 { q with msgsSent := q.msgsSent + 1 } := .of_same rfl
    exact hloop.trans_any hcount.any

/-- Where no session throws, every session takes its turn. -/
theorem send_speaks_message (hsilent : ∀ i, (call i).events = []) {p : Provider}
    (hok : (p.send stream message call).1 = .ok ()) :
    p.Speaks {[message.content]} (p.send stream message call).2 := by
  let I : List Nat → Provider → Prop := fun turns q => ∀ {i : Nat} {s : Session},
    p.sessions[i]? = some s →
      ∃ t, q.sessions[i]? = some t ∧ s.Speaks (spokenBy message turns i) t
  have hstep : ∀ pre j post q, List.range p.sessions.length = pre ++ j :: post → I pre q →
      (q.sendOn stream message call j).1 = .ok () →
      I (pre ++ [j]) (q.sendOn stream message call j).2 := by
    intro pre j post q hsplit hI hok i s hs
    obtain ⟨hpre, _⟩ := Faults.range_split hsplit
    obtain ⟨t, ht, hst⟩ := hI hs
    rw [sendOn_of_silent (hsilent j)] at hok ⊢
    obtain ⟨u, v, hu, huv, hset⟩ := giveTo_published hok
    rw [hset, List.getElem?_set]
    by_cases hij : j = i
    · -- the turn of this session
      subst hij
      obtain ⟨hlt, _⟩ := List.getElem?_eq_some_iff.mp hu
      rw [hu] at ht
      cases ht
      have hnot : j ∉ pre := by
        rw [hpre, List.mem_range]
        exact Nat.lt_irrefl j
      unfold spokenBy at hst ⊢
      rw [if_neg hnot] at hst
      rw [if_pos (List.mem_append_right _ List.mem_cons_self)]
      refine ⟨v, by simp [hlt], ?_⟩
      have htwo := hst.trans huv
      rwa [one_mul] at htwo
    · refine ⟨t, by simpa [hij] using ht, ?_⟩
      have hmem : (i ∈ pre ++ [j]) ↔ i ∈ pre := by
        rw [List.mem_append, List.mem_singleton]
        exact ⟨fun h => h.resolve_right fun heq => hij heq.symm, Or.inl⟩
      unfold spokenBy at hst ⊢
      simpa only [hmem] using hst
  have hall : ∀ q : Provider, I (List.range p.sessions.length) q → p.Speaks {[message.content]} q := by
    intro q hq
    refine ⟨fun {i s} hs => ?_⟩
    obtain ⟨t, ht, hst⟩ := hq hs
    unfold spokenBy at hst
    rw [if_pos (List.mem_range.mpr (List.getElem?_eq_some_iff.mp hs).1)] at hst
    exact ⟨t, ht, hst⟩
  have hstart : I [] p := fun {i s} hs => ⟨s, hs, .silent s⟩
  have hend := Faults.forEach_prefix_of_ok hstep hstart
  unfold Provider.send at hok ⊢
  cases hloop : Faults.forEach (Provider.sendOn stream message call)
      (List.range p.sessions.length) p with
  | mk r q =>
    rw [hloop] at hok hend
    cases r with
    | error e => cases hok
    | ok _ => exact (hall q (hend rfl)).word (.of_same rfl)

/-! ## A refresh -/

/-- No RFA event comes between the turns of the sessions. -/
def Silent (calls : Nat → RowCalls) : Prop := ∀ k i, ((calls k).session i).events = []

variable {config : Config} {resource : Resource} {table : Table} {calls : Nat → RowCalls}

theorem sendRow_speaks (hsilent : Silent calls) (row : (Text × List Value) × Nat) (s : Publish) :
    s.provider.Speaks ⊤ (sendRow config resource table calls row s).2.provider ∧
      ((sendRow config resource table calls row s).1 = .ok () →
        ∃ new, (sendRow config resource table calls row s).2.handed = new ++ s.handed ∧
          s.provider.Speaks {new.reverse.map Message.content}
            (sendRow config resource table calls row s).2.provider) := by
  rcases sendRow_cases config resource table calls row s with
    ⟨_, heq⟩ | ⟨_, _, heq⟩ | ⟨_, _, e, _, heq⟩ | ⟨_, _, i, message, _, hsent⟩
  · rw [heq]
    exact ⟨(Provider.Speaks.of_same rfl).any, fun _ => ⟨[], rfl, .of_same rfl⟩⟩
  · rw [heq]
    exact ⟨(Provider.Speaks.of_same rfl).any, fun h => by cases h⟩
  · rw [heq]
    exact ⟨(Provider.Speaks.of_same rfl).any, fun h => by cases h⟩
  · rw [hsent.result]
    refine ⟨send_speaks_any (hsilent row.2) s.provider, ?_⟩
    intro hok
    exact ⟨[message], rfl, send_speaks_message (hsilent row.2) hok⟩

theorem sendRefresh_speaks_any (hsilent : Silent calls) (provider : Provider) :
    provider.Speaks ⊤ (sendRefresh config resource table calls provider).2.provider := by
  have hstart : provider.Speaks 1 (Publish.start provider).provider := .of_same rfl
  exact hstart.any.trans_any <|
    Faults.forEach_rel (fun s t : Publish => s.provider.Speaks ⊤ t.provider)
      (fun _ => (Provider.Speaks.of_same rfl).any) (fun _ _ _ h h' => h.trans_any h')
      (fun row s => (sendRow_speaks hsilent row s).1) table.rows.zipIdx (.start provider)

/-- A refresh that ends without a fault goes to every session that may send. -/
theorem sendRefresh_speaks (hsilent : Silent calls) {provider : Provider}
    (hok : (sendRefresh config resource table calls provider).1 = .ok ()) :
    provider.Speaks
      {(sendRefresh config resource table calls provider).2.handed.reverse.map Message.content}
      (sendRefresh config resource table calls provider).2.provider := by
  have hstart : provider.Speaks 1 (Publish.start provider).provider := .of_same rfl
  refine Faults.forEach_prefix_of_ok
    (I := fun _ s => provider.Speaks {s.handed.reverse.map Message.content} s.provider)
    (fun _ row _ s _ hI hrow => ?_) hstart hok
  obtain ⟨new, hnew, hspeaks⟩ := (sendRow_speaks hsilent row s).2 hrow
  rw [hnew, List.reverse_append, List.map_append]
  exact hI.word hspeaks

end Psych
