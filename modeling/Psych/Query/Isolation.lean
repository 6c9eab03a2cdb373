import Psych.Query.Emissions
import Psych.Query.Shared

/-!
# Isolation of the connections of a round

The messages of a round are handled in any order, each with anything left in what they share.
`Midway` is the invariant: the messages so far have published what each publishes on its own. So
each resource gets the contents of its own response, unless a response ends the round before the
others have their turn (`isolated_iff`).
-/

namespace Psych

variable {platform : Platform} {config : Config}

/-! ## A round -/

/-- The messages of a round in some order, each with what the uninitialised variables hold. -/
def runRound (platform : Platform) (config : Config)
    (order : List ((Nat × Report) × Garbage)) (s : Shared) : Except Fault Unit × Shared :=
  Faults.forEach (fun m => handleShared (platform.withGarbage m.2) config m.1) order s

/-- The state before the messages, with anything left in what they share. -/
def roundStart (q : Query) (table : Table) (encoder : Encoder) : Shared :=
  { query := { q with engineVersion := table.engineVersion }, table := table, encoder := encoder }

/-- The contents published for a connection. -/
def Shared.contents (c : Nat) (s : Shared) : List Content :=
  (s.published.filter fun entry => entry.1 == c).map Prod.snd

/-- What a message of the round publishes on its own. -/
def Query.own (platform : Platform) (config : Config) (q : Query) (message : Nat × Report) :
    List Content :=
  ownContents platform config q.state.provider.streams message.2.transfer
    (q.state.connections message.1)

/-- The messages are of different pending connections that `Init` set up, RFA takes everything,
no label column is a configured field, and a failed extraction stores 0. -/
structure RoundFit (platform : Platform) (q : Query) (messages : List (Nat × Report)) :
    Prop where
  distinct : (messages.map Prod.fst).Nodup
  pending : ∀ message ∈ messages, message.1 ∈ q.pending
  ready : ∀ message ∈ messages,
    q.state.provider.Ready (q.state.connections message.1).resource
  calls : ∀ message ∈ messages, ∀ k, (message.2.calls k).Benign
  label : ∀ message ∈ messages, labelUnmapped (q.state.connections message.1)
  extraction : platform.zeroOnFailure

theorem RoundFit.perm {q : Query} {messages messages' : List (Nat × Report)}
    (h : RoundFit platform q messages) (hperm : messages'.Perm messages) :
    RoundFit platform q messages' where
  distinct := (hperm.map Prod.fst).nodup_iff.mpr h.distinct
  pending message hm := h.pending message (hperm.mem_iff.mp hm)
  ready message hm := h.ready message (hperm.mem_iff.mp hm)
  calls message hm := h.calls message (hperm.mem_iff.mp hm)
  label message hm := h.label message (hperm.mem_iff.mp hm)
  extraction := h.extraction

/-- The messages `pre` were handled: each has published what it publishes on its own. -/
structure Midway (platform : Platform) (config : Config) (q : Query)
    (messages pre : List (Nat × Report)) (s : Shared) : Prop where
  consistent : s.consistent
  untouched : ∀ c, c ∉ pre.map Prod.fst → s.query.state.connections c = q.state.connections c
  awaiting : awaiting messages pre s.query
  same : SameStreams q.state.provider.streams s.query.state.provider.streams
  ready : ∀ resource, q.state.provider.Ready resource → s.query.state.provider.Ready resource
  clean : ∀ message ∈ pre,
    ¬ faulty platform config message.2.transfer (q.state.connections message.1)
  published : s.published =
    (pre.flatMap fun message => (q.own platform config message).map fun content =>
      (message.1, content)).reverse

section Round

variable {q : Query} {messages pre post : List (Nat × Report)} {message : Nat × Report}
  {s : Shared}

theorem Midway.start (config : Config) (h : RoundFit platform q messages) (table : Table)
    (encoder : Encoder) :
    Midway platform config q messages [] (roundStart q table encoder) where
  consistent := rfl
  untouched _ _ := rfl
  awaiting c hc _ := by
    obtain ⟨message, hm, rfl⟩ := List.mem_map.mp hc
    exact h.pending message hm
  same := .refl _
  ready _ hready := hready
  clean := by simp
  published := rfl

/-- The connection of the next message is as it was at the start of the round. -/
theorem Midway.connection_eq (h : Midway platform config q messages pre s)
    (hround : RoundFit platform q messages) (hsplit : messages = pre ++ message :: post) :
    s.query.state.connections message.1 = q.state.connections message.1 := by
  apply h.untouched
  intro hmem
  have hnodup := hround.distinct
  rw [hsplit, List.map_append, List.map_cons, List.nodup_append] at hnodup
  exact hnodup.2.2 message.1 hmem message.1 List.mem_cons_self rfl

theorem Midway.fit (h : Midway platform config q messages pre s)
    (hround : RoundFit platform q messages) (hsplit : messages = pre ++ message :: post) :
    Fit q.state.provider.streams message s := by
  have hconnection := h.connection_eq hround hsplit
  have hm : message ∈ messages := by
    rw [hsplit]
    simp
  constructor
  · exact h.consistent
  · exact awaiting_head hround.distinct hsplit h.awaiting
  · rw [hconnection]
    exact h.ready _ (hround.ready message hm)
  · exact h.same
  · exact hround.calls message hm
  · rw [hconnection]
    exact hround.label message hm

/-- A message ends the round and publishes nothing, or it is handled. -/
theorem Midway.step (h : Midway platform config q messages pre s)
    (hround : RoundFit platform q messages) (hsplit : messages = pre ++ message :: post)
    (garbage : Garbage) :
    (faulty platform config message.2.transfer (q.state.connections message.1) ∧
      (∃ e, (handleShared (platform.withGarbage garbage) config message s).1 = .error e) ∧
      (handleShared (platform.withGarbage garbage) config message s).2.published = s.published) ∨
    ((handleShared (platform.withGarbage garbage) config message s).1 = .ok () ∧
      Midway platform config q messages (pre ++ [message])
        (handleShared (platform.withGarbage garbage) config message s).2) := by
  have hpublished := handleShared_published config hround.extraction garbage
    (h.fit hround hsplit)
  dsimp only at hpublished
  rw [h.connection_eq hround hsplit] at hpublished
  rcases hpublished with hfaulty | ⟨hclean, hok, hnew, hkept⟩
  · exact Or.inl hfaulty
  right
  refine ⟨hok, ?_⟩
  obtain ⟨_, hquery, hconsistent⟩ :=
    handleShared_eq (platform.withGarbage garbage) config message h.consistent
  constructor
  · exact hconsistent
  · intro c hc
    rw [List.map_append, List.mem_append, not_or, List.map_singleton, List.mem_singleton] at hc
    rw [hquery, handleMessage_connections]
    dsimp only
    rw [if_neg hc.2]
    exact h.untouched c hc.1
  · rw [hquery]
    exact awaiting_step (handleMessage_cases message s.query) h.awaiting
  · exact hkept.same
  · intro resource hready
    exact hkept.ready resource (h.ready resource hready)
  · intro m hm
    rcases List.mem_append.mp hm with hm | hm
    · exact h.clean m hm
    · rw [List.mem_singleton.mp hm]
      exact hclean
  · rw [hnew, h.published, List.flatMap_append, List.reverse_append]
    simp [Query.own]

end Round

/-- The round is gone through, or a message ends it; the messages before have published what they
publish on their own. -/
theorem runRound_cases (config : Config) {q : Query} {order : List ((Nat × Report) × Garbage)}
    (h : RoundFit platform q (order.map Prod.fst)) (table : Table) (encoder : Encoder) :
    Midway platform config q (order.map Prod.fst) (order.map Prod.fst)
      (runRound platform config order (roundStart q table encoder)).2 ∨
    ∃ pre message post s, order.map Prod.fst = pre ++ message :: post ∧
      Midway platform config q (order.map Prod.fst) pre s ∧
      faulty platform config message.2.transfer (q.state.connections message.1) ∧
      (runRound platform config order (roundStart q table encoder)).2.published = s.published := by
  have hsplit : ∀ pre m post, order = pre ++ m :: post →
      order.map Prod.fst = pre.map Prod.fst ++ m.1 :: post.map Prod.fst := by
    intro pre m post heq
    rw [heq, List.map_append, List.map_cons]
  have hrun := Faults.forEach_prefix
    (f := fun m : (Nat × Report) × Garbage => handleShared (platform.withGarbage m.2) config m.1)
    (l := order)
    (I := fun pre s => Midway platform config q (order.map Prod.fst) (pre.map Prod.fst) s)
    (F := fun _ s' => ∃ pre message post s, order.map Prod.fst = pre ++ message :: post ∧
      Midway platform config q (order.map Prod.fst) pre s ∧
      faulty platform config message.2.transfer (q.state.connections message.1) ∧
      s'.published = s.published)
    (fun pre m post s heq hI hok => by
      rcases hI.step h (hsplit pre m post heq) m.2 with ⟨_, ⟨e, he⟩, _⟩ | ⟨_, hnext⟩
      · rw [he] at hok
        cases hok
      · rw [List.map_append]
        exact hnext)
    (fun pre m post s e heq hI he => by
      rcases hI.step h (hsplit pre m post heq) m.2 with ⟨hfaulty, _, hsame⟩ | ⟨hok, _⟩
      · exact ⟨_, _, _, s, hsplit pre m post heq, hI, hfaulty, hsame⟩
      · rw [he] at hok
        cases hok)
    (Midway.start config h table encoder)
  rcases hrun with ⟨_, hall⟩ | ⟨_, _, hstopped⟩
  · exact Or.inl hall
  · exact Or.inr hstopped

/-- Nothing is published in a round that its first message ends. -/
theorem runRound_faulty_head {q : Query} {message : Nat × Report} {garbage : Garbage}
    {rest : List ((Nat × Report) × Garbage)}
    (h : RoundFit platform q (((message, garbage) :: rest).map Prod.fst))
    (hfaulty : faulty platform config message.2.transfer (q.state.connections message.1))
    (table : Table) (encoder : Encoder) :
    (runRound platform config ((message, garbage) :: rest)
      (roundStart q table encoder)).2.published = [] := by
  have hsplit : ((message, garbage) :: rest).map Prod.fst = [] ++ message :: rest.map Prod.fst := rfl
  have hstep := (Midway.start config h table encoder).step h hsplit garbage
  rcases hstep with ⟨_, ⟨e, he⟩, hsame⟩ | ⟨_, hmid⟩
  · unfold runRound
    rw [Faults.forEach_cons_error
      (f := fun m : (Nat × Report) × Garbage => handleShared (platform.withGarbage m.2) config m.1)
      he]
    exact hsame
  · exact absurd hfaulty (hmid.clean message (by simp))

/-! ## Isolation -/

/-- Whatever the order of the messages, and whatever is left from others, each resource gets what
its own response publishes. -/
def Isolated (platform : Platform) (config : Config) (q : Query)
    (messages : List (Nat × Report)) : Prop :=
  ∀ (order : List ((Nat × Report) × Garbage)) (table : Table) (encoder : Encoder),
    (order.map Prod.fst).Perm messages → ∀ message ∈ messages,
      ((runRound platform config order (roundStart q table encoder)).2.contents message.1).Perm
        (q.own platform config message)

/-- Of what messages of different connections publish, each finds its own. -/
theorem contents_flatMap {f : Nat × Report → List Content} {messages : List (Nat × Report)}
    (hdistinct : (messages.map Prod.fst).Nodup) {message : Nat × Report}
    (hm : message ∈ messages) :
    ((messages.flatMap fun m => (f m).map fun content => (m.1, content)).filter
      fun entry => entry.1 == message.1).map Prod.snd = f message := by
  have hother : ∀ m : Nat × Report, m.1 ≠ message.1 →
      (((f m).map fun content => (m.1, content)).filter
        fun entry => entry.1 == message.1) = [] := by
    intro m hne
    rw [List.filter_eq_nil_iff]
    intro entry hentry
    obtain ⟨content, _, rfl⟩ := List.mem_map.mp hentry
    simpa using hne
  have hown : (((f message).map fun content => (message.1, content)).filter
      fun entry => entry.1 == message.1).map Prod.snd = f message := by
    rw [List.filter_eq_self.mpr, List.map_map]
    · exact List.map_id _
    · intro entry hentry
      obtain ⟨content, _, rfl⟩ := List.mem_map.mp hentry
      simp
  induction messages with
  | nil => cases hm
  | cons m messages ih =>
    rw [List.map_cons, List.nodup_cons] at hdistinct
    rw [List.flatMap_cons, List.filter_append, List.map_append]
    rcases List.mem_cons.mp hm with rfl | hm
    · have hrest : ((messages.flatMap fun m => (f m).map fun content => (m.1, content)).filter
          fun entry => entry.1 == message.1) = [] := by
        rw [List.filter_flatMap, List.flatMap_eq_nil_iff]
        intro m hm
        apply hother
        intro heq
        exact hdistinct.1 (heq ▸ List.mem_map_of_mem hm)
      rw [hown, hrest, List.map_nil, List.append_nil]
    · have hne : m.1 ≠ message.1 := by
        intro heq
        exact hdistinct.1 (heq ▸ List.mem_map_of_mem hm)
      rw [hother m hne, List.map_nil, List.nil_append]
      exact ih hdistinct.2 hm

section Isolation

variable {q : Query} {messages pre : List (Nat × Report)} {message : Nat × Report} {s : Shared}

theorem Midway.contents (h : Midway platform config q messages pre s)
    (hdistinct : (pre.map Prod.fst).Nodup) (hm : message ∈ pre) :
    (s.contents message.1).Perm (q.own platform config message) := by
  unfold Shared.contents
  rw [h.published, List.filter_reverse, List.map_reverse, contents_flatMap hdistinct hm]
  exact List.reverse_perm _

theorem Midway.contents_nil (h : Midway platform config q messages pre s)
    (hnone : ∀ message ∈ pre, q.own platform config message = []) (c : Nat) :
    s.contents c = [] := by
  have hnil : (pre.flatMap fun message => (q.own platform config message).map fun content =>
      (message.1, content)) = [] := by
    rw [List.flatMap_eq_nil_iff]
    intro message hm
    rw [hnone message hm, List.map_nil]
  unfold Shared.contents
  rw [h.published, hnil]
  rfl

theorem RoundFit.own_ne_nil_iff (h : RoundFit platform q messages) (hm : message ∈ messages) :
    q.own platform config message ≠ [] ↔
      publishes platform config message.2.transfer (q.state.connections message.1) :=
  ownContents_ne_nil_iff (h.ready message hm).covers

end Isolation

/-- A response that ends the round can take its turn before one that publishes. -/
theorem not_isolated {q : Query} {messages : List (Nat × Report)}
    (h : RoundFit platform q messages) {first message : Nat × Report} (hfirst : first ∈ messages)
    (hfaulty : faulty platform config first.2.transfer (q.state.connections first.1))
    (hm : message ∈ messages)
    (hpublishes : publishes platform config message.2.transfer (q.state.connections message.1)) :
    ¬ Isolated platform config q messages := by
  intro hisolated
  obtain ⟨before, after, hsplit⟩ := List.append_of_mem hfirst
  let rest : List ((Nat × Report) × Garbage) :=
    (before ++ after).map fun m => (m, platform.uninitialised)
  have horder : ((first, platform.uninitialised) :: rest).map Prod.fst =
      first :: (before ++ after) := by
    rw [List.map_cons, List.map_map]
    exact congrArg (first :: ·) (List.map_id _)
  have hperm : (((first, platform.uninitialised) :: rest).map Prod.fst).Perm messages := by
    rw [horder, hsplit]
    exact List.perm_middle.symm
  have hown := hisolated _ {} {} hperm message hm
  have hpublished := runRound_faulty_head (h.perm hperm) hfaulty {} {}
  unfold Shared.contents at hown
  rw [hpublished] at hown
  exact (h.own_ne_nil_iff hm).mpr hpublishes (List.nil_perm.mp hown)

/-- The responses of a round are isolated from each other exactly where none of them ends the
round, or none of them publishes anything. -/
theorem isolated_iff {q : Query} {messages : List (Nat × Report)}
    (h : RoundFit platform q messages) :
    Isolated platform config q messages ↔
      (∀ message ∈ messages,
        ¬ faulty platform config message.2.transfer (q.state.connections message.1)) ∨
      ∀ message ∈ messages,
        ¬ publishes platform config message.2.transfer (q.state.connections message.1) := by
  constructor
  · intro hisolated
    by_contra hnot
    rw [not_or] at hnot
    simp only [not_forall, not_not, exists_prop] at hnot
    obtain ⟨⟨first, hfirst, hfaulty⟩, message, hm, hpublishes⟩ := hnot
    exact not_isolated h hfirst hfaulty hm hpublishes hisolated
  · intro hcondition order table encoder hperm message hm
    have hfit : RoundFit platform q (order.map Prod.fst) := h.perm hperm
    have hmem : ∀ m, m ∈ order.map Prod.fst → m ∈ messages := fun m => hperm.mem_iff.mp
    rcases hcondition with hclean | hsilent
    · rcases runRound_cases config hfit table encoder with
        hmid | ⟨pre, m, post, _, hsplit, _, hfaulty, _⟩
      · exact hmid.contents hfit.distinct (hperm.mem_iff.mpr hm)
      · have hin : m ∈ order.map Prod.fst := by
          rw [hsplit]
          simp
        exact absurd hfaulty (hclean m (hmem m hin))
    · have hnil : ∀ m ∈ messages, q.own platform config m = [] := by
        intro m hm'
        by_contra hne
        exact hsilent m hm' ((h.own_ne_nil_iff hm').mp hne)
      rw [hnil message hm, List.perm_nil]
      rcases runRound_cases config hfit table encoder with
        hmid | ⟨pre, m, post, s, hsplit, hmid, _, hsame⟩
      · exact hmid.contents_nil (fun m hm' => hnil m (hmem m hm')) message.1
      · have hpre : ∀ m ∈ pre, q.own platform config m = [] := by
          intro m hm'
          apply hnil m (hmem m _)
          rw [hsplit]
          exact List.mem_append_left _ hm'
        have hnone := hmid.contents_nil hpre message.1
        unfold Shared.contents at hnone ⊢
        rw [hsame]
        exact hnone

/-- The messages of a round of `queryRound`, with what they share. -/
theorem runRound_query (platform : Platform) (config : Config) (messages : List (Nat × Report))
    (q : Query) (table : Table) (encoder : Encoder) :
    (runRound platform config (messages.map fun m => (m, platform.uninitialised))
        (roundStart q table encoder)).1 =
      (Faults.forEach (handleMessage platform config) messages
        { q with engineVersion := table.engineVersion }).1 ∧
    (runRound platform config (messages.map fun m => (m, platform.uninitialised))
        (roundStart q table encoder)).2.query =
      (Faults.forEach (handleMessage platform config) messages
        { q with engineVersion := table.engineVersion }).2 := by
  unfold runRound
  rw [Faults.forEach_map]
  obtain ⟨hfst, hsnd, _⟩ := Faults.forEach_simulation (l := messages)
    (f := fun m => handleShared (platform.withGarbage platform.uninitialised) config m)
    (g := handleMessage platform config)
    (fun (s : Shared) (q : Query) => s.query = q ∧ s.consistent)
    (fun m _ s q' h => by
      obtain ⟨rfl, hconsistent⟩ := h
      exact handleShared_eq platform config m hconsistent)
    (s := roundStart q table encoder) ⟨rfl, rfl⟩
  exact ⟨hfst, hsnd⟩

/-! ## Two connections -/

/-- A platform on which a failed extraction stores 0. -/
def zeroPlatform : Platform :=
  { boostPlatform with
    extract := fun text _ =>
      (match readInteger text with
        | (n, true) => some (.real n)
        | (_, false) => none : Option Value).getD (.real 0) }

def secondResource : Resource :=
  { sampleResource with
    name := "bonds".toList
    path := "/bonds".toList
    items := [("1679".toList, "MPTRXBD01".toList, "Mining".toList)] }

/-- A query whose two transfers have completed. -/
def pairQuery : Query where
  state :=
    { count := 2
      connections := fun c =>
        sampleConnection (if c = 0 then sampleResource else secondResource)
      provider := .create 1 [sampleResource, secondResource] }
  pending := [0, 1]

/-- The first response with or without a content type. -/
def pairMessages (contentType : Option Text) : List (Nat × Report) :=
  [(0, { transfer := { sampleTransfer with contentType := contentType } }),
    (1, { transfer := sampleTransfer })]

set_option maxRecDepth 10000 in
theorem pair_fit (contentType : Option Text) :
    RoundFit zeroPlatform pairQuery (pairMessages contentType) where
  distinct := by simp [pairMessages]
  pending message hm := by
    rcases List.mem_cons.mp hm with rfl | hm
    · exact List.mem_cons_self
    · rw [List.mem_singleton.mp hm]
      exact List.mem_cons_of_mem _ (List.mem_singleton_self _)
  ready message hm := by
    apply create_ready
    rcases List.mem_cons.mp hm with rfl | hm
    · exact List.mem_cons_self
    · rw [List.mem_singleton.mp hm]
      exact List.mem_cons_of_mem _ (List.mem_singleton_self _)
  calls message hm k := by
    rcases List.mem_cons.mp hm with rfl | hm
    · exact ⟨fun _ => rfl, rfl, fun _ => rfl⟩
    · rw [List.mem_singleton.mp hm]
      exact ⟨fun _ => rfl, rfl, fun _ => rfl⟩
  label message hm := by
    intro name hname
    obtain rfl : "Sector".toList = name := Option.some.inj (sample_columns.symm.trans hname)
    have hunmapped : ¬ (sampleResource.fields.lookup "Sector".toList).isSome = true := by decide
    rcases List.mem_cons.mp hm with rfl | hm
    · exact hunmapped
    · rw [List.mem_singleton.mp hm]
      exact hunmapped
  extraction := ⟨_, fun _ _ => rfl⟩

set_option maxRecDepth 10000 in
theorem pair_publishes : publishes zeroPlatform sampleConfig sampleTransfer
    (pairQuery.state.connections 1) := by
  have hreads : tableAccepted zeroPlatform sampleBody = true ∧
      rendered zeroPlatform sampleTransfer (sampleConnection secondResource) = true := by
    unfold sampleConnection
    rw [sampleBody_eq]
    decide +kernel
  exact ⟨⟨⟨rfl, ⟨_, rfl, sample_evaluated.1⟩, Or.inr rfl⟩, hreads⟩, _, sample_label, by decide⟩

/-- Two complete responses are isolated. -/
theorem pair_isolated : Isolated zeroPlatform sampleConfig pairQuery
    (pairMessages (some textPlain)) := by
  refine (isolated_iff (pair_fit (some textPlain))).mpr (Or.inl ?_)
  have hclean : ∀ resource, ¬ faulty zeroPlatform sampleConfig sampleTransfer
      (sampleConnection resource) := by
    rintro resource (⟨hnone, _⟩ | ⟨_, _, hrendered⟩)
    · cases hnone
    · exact absurd pair_publishes.1.2.2 (by rw [Bool.not_eq_true]; exact hrendered)
  intro message hm
  rcases List.mem_cons.mp hm with rfl | hm
  · exact hclean _
  · rw [List.mem_singleton.mp hm]
    exact hclean _

/-- A response without a content type takes the other resource's messages with it. -/
theorem null_content_type_silences_others :
    RoundFit zeroPlatform pairQuery (pairMessages none) ∧
      ¬ Isolated zeroPlatform sampleConfig pairQuery (pairMessages none) :=
  ⟨pair_fit none, not_isolated (pair_fit none) List.mem_cons_self (Or.inl ⟨rfl, Or.inr rfl⟩)
    (List.mem_cons_of_mem _ (List.mem_singleton_self _)) pair_publishes⟩

end Psych
