import Mathlib.Data.List.Nodup
import Psych.Lifecycle.Instruments
import Psych.Rfa.HalfMade

/-!
# One stream for each RIC

The loop of `Init` again, with the calls of `CreateItemStream` and what they do to the sessions
and the directory. The loop tells RICs apart by all their characters, the directory by those up to
the first terminator, which is where `const char*` ends. So each RIC has a stream of its own that
the directory leads to exactly when no RIC contains a terminator (`one_stream_iff`).
-/

namespace Psych

open Emplace

/-! ## The loop with its calls -/

/-- The state of the loop, with the sessions of the provider. `created` are the RICs that
`CreateItemStream` was called for, in order; it is not in the source. -/
structure Publishing extends Instruments where
  sessions : List Session
  created : List Text := []

/-- The branch that creates a stream; `tokens n` is what `generateItemToken` returns in the `n`th
call. -/
def Publishing.createStream (tokens : Nat → Nat → Option Nat) (ric : Text) (s : Publishing) :
    Except Fault Nat × Publishing :=
  let provider : Provider := { sessions := s.sessions, streams := s.streams }
  let r := provider.createItemStream (cStr ric) (tokens s.created.length)
  let t := { s with
    sessions := r.2.sessions, streams := r.2.streams, created := s.created ++ [ric] }
  match r.1 with
  | .error e => (.error e, t)
  | .ok _ =>
    (.ok s.streams.stream.length,
      { t with streamVector := emplace s.streamVector (ric, s.streams.stream.length) })

/-- The stream of a RIC, which may not be unique. -/
def Publishing.itemStream (tokens : Nat → Nat → Option Nat) (ric : Text) (s : Publishing) :
    Except Fault Nat × Publishing :=
  match s.streamVector.lookup ric with
  | some stream => (.ok stream, s)
  | none => s.createStream tokens ric

/-- The body of the inner loop. -/
def publishItem (tokens : Nat → Nat → Option Nat) (item : Text × Text × Text)
    (acc : Publishing × NameMap) : Except Fault Unit × (Publishing × NameMap) :=
  match acc.1.itemStream tokens item.2.1 with
  | (.error e, s) => (.error e, (s, acc.2))
  | (.ok stream, s) => (.ok (), (s, emplace acc.2 (item.1, item.2.2, stream)))

/-- The body of the outer loop. -/
def publishResource (config : Config) (tokens : Nat → Nat → Option Nat) (resource : Resource)
    (s : Publishing) : Except Fault Unit × Publishing :=
  let s :=
    { s with connections := emplace s.connections (resource.key, connectionOf config resource) }
  match Faults.forEach (publishItem tokens) resource.items (s, []) with
  | (.error e, acc) => (.error e, acc.1)
  | (.ok (), acc) =>
    (.ok (), { acc.1 with queryVector := emplace acc.1.queryVector (resource.key, acc.2) })

def publishResources (config : Config) (tokens : Nat → Nat → Option Nat)
    (sessions : List Session) : Except Fault Unit × Publishing :=
  Faults.forEach (publishResource config tokens) config.resources { sessions := sessions }

/-! ## One stream -/

/-- An entry of `query_vector_` that refers to the stream was configured with the RIC. -/
def Publishing.Refers (config : Config) (s : Publishing) (ric : Text) (stream : Nat) : Prop :=
  ∃ path resource nameMap sector topic,
    s.queryVector.lookup path = some nameMap ∧
    config.resources.find? (fun resource => resource.key == path) = some resource ∧
    nameMap.lookup sector = some (topic, stream) ∧
    resource.items.lookup sector = some (ric, topic)

/-- One stream for each RIC: in the calls, in `stream_vector_`, in the directory and in
`query_vector_`. -/
structure OneStreamEach (config : Config) (s : Publishing) : Prop where
  once : s.created.Nodup
  created : ∀ ric, ric ∈ s.created ↔ ric ∈ config.resources.flatMap Resource.rics
  /-- No name is given to the directory twice. -/
  names : (s.created.map cStr).Nodup
  vector : ∀ ric, (s.streamVector.lookup ric).isSome = true ↔
    ric ∈ config.resources.flatMap Resource.rics
  distinct : (s.streamVector.map Prod.fst).Nodup ∧ (s.streamVector.map Prod.snd).Nodup
  directory : ∀ ric stream, s.streamVector.lookup ric = some stream →
    s.streams.directory.lookup ric = some stream
  shared : ∀ ric stream ric' stream', s.Refers config ric stream → s.Refers config ric' stream' →
    (stream = stream' ↔ ric = ric')

/-! ## What a call leaves -/

theorem createItemStream_streams {name : Text} {tokens : Nat → Option Nat} {p : Provider}
    (hok : (p.createItemStream name tokens).1 = .ok ()) :
    (p.createItemStream name tokens).2.streams.stream.length = p.streams.stream.length + 1 ∧
      (p.createItemStream name tokens).2.streams.directory =
        emplace p.streams.directory (name, p.streams.stream.length) := by
  unfold Provider.createItemStream at hok ⊢
  split at hok
  · cases hok
  · exact ⟨by simp, rfl⟩

/-- The streams in the order of their creation. -/
structure Publishing.Sound (s : Publishing) : Prop where
  nodup : s.created.Nodup
  streamVector : s.streamVector = s.created.zipIdx
  size : s.streams.stream.length = s.created.length
  directory : s.streams.directory =
    emplaceAll [] (s.created.zipIdx.map fun entry => (cStr entry.1, entry.2))

/-- The maps are those of the loop without its calls. -/
structure Publishing.Refines (s : Publishing) (t : Instruments) : Prop where
  connections : s.connections = t.connections
  streamVector : s.streamVector = t.streamVector
  queryVector : s.queryVector = t.queryVector
  size : s.streams.stream.length = t.streams.stream.length
  agree : t.Agree

theorem Publishing.Sound.not_mem {s : Publishing} (h : s.Sound) {ric : Text}
    (hric : s.streamVector.lookup ric = none) : ric ∉ s.created := by
  intro hmem
  obtain ⟨i, hi⟩ := List.mem_iff_getElem?.mp hmem
  rw [h.streamVector, List.lookup_eq_none_iff] at hric
  have hentry : (ric, i) ∈ s.created.zipIdx := List.mem_zipIdx_iff_getElem?.mpr hi
  simpa using hric _ hentry

/-- The stream of a RIC is its place among the RICs of the calls. -/
theorem Publishing.Sound.getElem? {s : Publishing} (h : s.Sound) {ric : Text} {stream : Nat}
    (hric : s.streamVector.lookup ric = some stream) : s.created[stream]? = some ric := by
  rw [h.streamVector] at hric
  exact List.mem_zipIdx_iff_getElem?.mp (mem_of_lookup hric)

theorem Publishing.Sound.lookup_isSome {s : Publishing} (h : s.Sound) (ric : Text) :
    (s.streamVector.lookup ric).isSome = true ↔ ric ∈ s.created := by
  rw [Option.isSome_iff_ne_none]
  constructor
  · intro hne
    obtain ⟨stream, hstream⟩ := Option.ne_none_iff_exists'.mp hne
    exact List.mem_of_getElem? (h.getElem? hstream)
  · exact fun hmem hnone => h.not_mem hnone hmem

theorem Publishing.Sound.createStream {s : Publishing} (h : s.Sound)
    {tokens : Nat → Nat → Option Nat} {ric : Text} (hric : s.streamVector.lookup ric = none)
    {stream : Nat} (hok : (s.createStream tokens ric).1 = .ok stream) :
    stream = s.streams.stream.length ∧ (s.createStream tokens ric).2.Sound ∧
      (s.createStream tokens ric).2.created = s.created ++ [ric] ∧
      (s.createStream tokens ric).2.connections = s.connections ∧
      (s.createStream tokens ric).2.queryVector = s.queryVector := by
  unfold Publishing.createStream at hok ⊢
  dsimp only at hok ⊢
  split at hok
  · cases hok
  · rename_i heq
    obtain ⟨hsize, hdirectory⟩ := createItemStream_streams heq
    refine ⟨(Except.ok.inj hok).symm, ⟨?_, ?_, ?_, ?_⟩, rfl, rfl, rfl⟩
    · exact List.nodup_append.mpr ⟨h.nodup, List.nodup_singleton _, fun a ha b hb => by
        rw [List.mem_singleton.mp hb]
        exact fun heq => h.not_mem hric (heq ▸ ha)⟩
    · change emplace _ _ = _
      rw [emplace_of_none hric, h.streamVector, h.size, List.zipIdx_append]
      simp
    · change (Provider.createItemStream _ _ _).2.streams.stream.length = _
      rw [hsize, List.length_append]
      exact congrArg (· + 1) h.size
    · change (Provider.createItemStream _ _ _).2.streams.directory = _
      rw [hdirectory, List.zipIdx_append, List.map_append, emplaceAll, List.foldl_append]
      change emplace s.streams.directory (cStr ric, s.streams.stream.length) = _
      rw [h.directory, h.size]
      simp [emplaceAll]

/-! ## The loop without its calls -/

/-- The loop so far, where `rics` are the RICs it comes to. -/
structure Publishing.Follows (rics : List Text) (s : Publishing) (t : Instruments) : Prop where
  sound : s.Sound
  refines : s.Refines t
  only : ∀ ric ∈ s.created, ric ∈ rics

variable {rics : List Text} {tokens : Nat → Nat → Option Nat}

theorem createItemStream_new (sessions : Nat) {streams : Streams} {ric : Text}
    (h : streams.directory.lookup ric = none) :
    (streams.createItemStream sessions ric).stream.length = streams.stream.length + 1 := by
  unfold Streams.createItemStream
  rw [h]
  simp

theorem stream_new (sessions : Nat) {t : Instruments} {ric : Text}
    (h : t.streamVector.lookup ric = none) :
    (t.stream sessions ric).1 = t.streams.stream.length ∧
      (t.stream sessions ric).2.streamVector =
        t.streamVector ++ [(ric, t.streams.stream.length)] := by
  unfold Instruments.stream
  simp [emplace_of_none, h]

theorem itemStream_follows (n : Nat) {s : Publishing} {t : Instruments} (h : s.Follows rics t)
    {ric : Text} (hric : ric ∈ rics) {stream : Nat}
    (hok : (s.itemStream tokens ric).1 = .ok stream) :
    stream = (t.stream n ric).1 ∧
      (s.itemStream tokens ric).2.Follows rics (t.stream n ric).2 := by
  obtain ⟨hagree, hstreams⟩ := stream_streams n ric h.refines.agree
  unfold Publishing.itemStream at hok ⊢
  cases hlookup : s.streamVector.lookup ric with
  | some k =>
    have hlookup' : t.streamVector.lookup ric = some k :=
      (congrArg (List.lookup ric) h.refines.streamVector).symm.trans hlookup
    simp only [hlookup] at hok ⊢
    unfold Instruments.stream
    simp only [hlookup']
    exact ⟨(Except.ok.inj hok).symm, h⟩
  | none =>
    have hlookup' : t.streamVector.lookup ric = none :=
      (congrArg (List.lookup ric) h.refines.streamVector).symm.trans hlookup
    have hdirectory : t.streams.directory.lookup ric = none := h.refines.agree ▸ hlookup'
    simp only [hlookup] at hok ⊢
    obtain ⟨rfl, hsound, hcreated, hconnections, hquery⟩ := h.sound.createStream hlookup hok
    have hlength : (t.stream n ric).2.streams.stream.length = t.streams.stream.length + 1 := by
      rw [hstreams, createItemStream_new n hdirectory]
    obtain ⟨hplace, hvector⟩ := stream_new n hlookup'
    obtain ⟨_, _, hconnections', hquery'⟩ := stream_spec n ric t
    refine ⟨h.refines.size.trans hplace.symm, hsound, ⟨?_, ?_, ?_, ?_, hagree⟩, ?_⟩
    · rw [hconnections, hconnections', h.refines.connections]
    · rw [hsound.streamVector, hcreated, hvector, ← h.refines.streamVector,
        h.sound.streamVector, ← h.refines.size, h.sound.size, List.zipIdx_append]
      simp
    · rw [hquery, hquery', h.refines.queryVector]
    · rw [hsound.size, hcreated, hlength, ← h.refines.size, h.sound.size, List.length_append]
      rfl
    · intro x hx
      rw [hcreated, List.mem_append, List.mem_singleton] at hx
      rcases hx with hold | rfl
      · exact h.only x hold
      · exact hric

theorem publishItem_follows (n : Nat) {item : Text × Text × Text} (hric : item.2.1 ∈ rics)
    {acc : Publishing × NameMap} {acc' : Instruments × NameMap}
    (h : acc.1.Follows rics acc'.1 ∧ acc.2 = acc'.2)
    (hok : (publishItem tokens item acc).1 = .ok ()) :
    (publishItem tokens item acc).2.1.Follows rics (addItem n acc' item).1 ∧
      (publishItem tokens item acc).2.2 = (addItem n acc' item).2 := by
  obtain ⟨hfollows, hmap⟩ := h
  unfold publishItem at hok ⊢
  cases hitem : acc.1.itemStream tokens item.2.1 with
  | mk r s =>
    rw [hitem] at hok
    cases r with
    | error e => cases hok
    | ok stream =>
      obtain ⟨hstream, hnext⟩ := itemStream_follows n hfollows hric (congrArg Prod.fst hitem)
      rw [hitem] at hnext
      refine ⟨hnext, ?_⟩
      dsimp only
      rw [hstream, hmap]
      rfl

theorem publishItems_follows (n : Nat) {items : List (Text × Text × Text)}
    (hrics : ∀ item ∈ items, item.2.1 ∈ rics) {s : Publishing} {t : Instruments}
    (h : s.Follows rics t)
    (hok : (Faults.forEach (publishItem tokens) items (s, [])).1 = .ok ()) :
    (Faults.forEach (publishItem tokens) items (s, [])).2.1.Follows rics
        (items.foldl (addItem n) (t, [])).1 ∧
      (Faults.forEach (publishItem tokens) items (s, [])).2.2 =
        (items.foldl (addItem n) (t, [])).2 := by
  refine Faults.forEach_prefix_of_ok (f := publishItem tokens) (l := items)
    (I := fun pre acc => acc.1.Follows rics (pre.foldl (addItem n) (t, [])).1 ∧
      acc.2 = (pre.foldl (addItem n) (t, [])).2)
    (fun pre item post acc hsplit hacc hitem => ?_) ⟨h, rfl⟩ hok
  rw [List.foldl_append]
  exact publishItem_follows n (hrics item (by rw [hsplit]; simp)) hacc hitem

theorem publishResource_follows {config : Config} {resource : Resource}
    (hrics : ∀ item ∈ resource.items, item.2.1 ∈ rics) {s : Publishing} {t : Instruments}
    (h : s.Follows rics t) (hok : (publishResource config tokens resource s).1 = .ok ()) :
    (publishResource config tokens resource s).2.Follows rics (addResource config t resource) := by
  let entry := (resource.key, connectionOf config resource)
  have hstart : Publishing.Follows rics
      { s with connections := emplace s.connections entry }
      { t with connections := emplace t.connections entry } :=
    ⟨⟨h.sound.nodup, h.sound.streamVector, h.sound.size, h.sound.directory⟩,
      ⟨congrArg (emplace · entry) h.refines.connections, h.refines.streamVector,
        h.refines.queryVector, h.refines.size, h.refines.agree⟩, h.only⟩
  have hitems := @publishItems_follows _ tokens config.sessions.length _ hrics _ _ hstart
  unfold publishResource at hok ⊢
  dsimp only at hok ⊢
  split at hok
  · cases hok
  · rename_i acc hacc
    rw [hacc] at hitems
    obtain ⟨⟨hsound, hrefines, honly⟩, hmap⟩ := hitems rfl
    refine ⟨⟨hsound.nodup, hsound.streamVector, hsound.size, hsound.directory⟩,
      ⟨hrefines.connections, hrefines.streamVector, ?_, hrefines.size, hrefines.agree⟩, honly⟩
    change emplace acc.1.queryVector (resource.key, acc.2) = _
    rw [hrefines.queryVector, hmap]
    rfl

/-- The loop follows the loop without its calls. -/
theorem publishResources_follows {config : Config} {sessions : List Session}
    (hok : (publishResources config tokens sessions).1 = .ok ()) :
    (publishResources config tokens sessions).2.Follows (config.resources.flatMap Resource.rics)
      (publishInstruments config) := by
  refine Faults.forEach_prefix_of_ok (f := publishResource config tokens)
    (l := config.resources)
    (I := fun pre s => s.Follows (config.resources.flatMap Resource.rics)
      (pre.foldl (addResource config) {}))
    (fun pre resource post s hsplit hs hresource => ?_)
    ⟨⟨List.nodup_nil, rfl, rfl, rfl⟩, ⟨rfl, rfl, rfl, rfl, rfl⟩, by simp⟩ hok
  rw [List.foldl_append]
  refine publishResource_follows (fun item hitem => ?_) hs hresource
  exact List.mem_flatMap.mpr ⟨resource, by rw [hsplit]; simp, List.mem_map_of_mem hitem⟩

/-! ## The loop ends -/

/-- No session has a login yet when the loop runs, so no call throws. -/
theorem publishResources_ok (config : Config) (tokens : Nat → Nat → Option Nat)
    {sessions : List Session} (hmuted : ∀ session ∈ sessions, session.isMuted = true) :
    (publishResources config tokens sessions).1 = .ok () := by
  have hstream : ∀ ric (s : Publishing), s.sessions = sessions →
      (∃ stream, (s.itemStream tokens ric).1 = .ok stream) ∧
        (s.itemStream tokens ric).2.sessions = sessions := by
    intro ric s hs
    unfold Publishing.itemStream
    split
    · exact ⟨⟨_, rfl⟩, hs⟩
    · unfold Publishing.createStream Provider.createItemStream
      dsimp only
      rw [createTokens_muted _ _ (by rw [hs]; exact hmuted)]
      exact ⟨⟨_, rfl⟩, hs⟩
  have hitem : ∀ item (acc : Publishing × NameMap), acc.1.sessions = sessions →
      (publishItem tokens item acc).1 = .ok () ∧
        (publishItem tokens item acc).2.1.sessions = sessions := by
    intro item acc hacc
    obtain ⟨⟨stream, hok⟩, hsame⟩ := hstream item.2.1 acc.1 hacc
    unfold publishItem
    split <;> rename_i heq <;> rw [heq] at hok hsame
    · cases hok
    · exact ⟨rfl, hsame⟩
  refine (Faults.forEach_ok (fun s : Publishing => s.sessions = sessions)
    (fun resource _ s hs => ?_) rfl).1
  have hitems := Faults.forEach_ok (f := publishItem tokens) (l := resource.items)
    (fun acc => acc.1.sessions = sessions) (fun item _ acc hacc => hitem item acc hacc)
    (s := ({ s with
      connections := emplace s.connections (resource.key, connectionOf config resource) }, []))
    hs
  unfold publishResource
  dsimp only
  split <;> rename_i heq <;> rw [heq] at hitems
  · cases hitems.1
  · exact ⟨rfl, hitems.2⟩

/-! ## The directory -/

/-- An entry refers to the stream of its RIC. -/
theorem Publishing.Follows.refers {config : Config} {s : Publishing}
    (h : s.Follows (config.resources.flatMap Resource.rics) (publishInstruments config))
    {ric : Text} {stream : Nat} (hrefers : s.Refers config ric stream) :
    s.streamVector.lookup ric = some stream := by
  obtain ⟨path, resource, nameMap, sector, topic, hquery, hserved, hsector, hitem⟩ := hrefers
  obtain ⟨_, hspec, hcovers⟩ := publishInstruments_spec config path
  rw [hserved, ← h.refines.queryVector, hquery, Option.map_some, Option.some.injEq] at hspec
  obtain ⟨stream', hsector', hstream⟩ :=
    lookup_nameMap (hcovers resource (List.mem_of_find?_eq_some hserved)) hitem
  rw [← hspec, hsector] at hsector'
  obtain rfl := (Prod.mk.inj (Option.some.inj hsector')).2
  rw [h.refines.streamVector]
  exact hstream

theorem Publishing.Follows.mem_created {config : Config} {s : Publishing}
    (h : s.Follows (config.resources.flatMap Resource.rics) (publishInstruments config))
    (ric : Text) : ric ∈ s.created ↔ ric ∈ config.resources.flatMap Resource.rics := by
  refine ⟨h.only ric, fun hmem => ?_⟩
  obtain ⟨resource, hresource, hric⟩ := List.mem_flatMap.mp hmem
  obtain ⟨item, hitem, rfl⟩ := List.mem_map.mp hric
  obtain ⟨_, _, hcovers⟩ := publishInstruments_spec config resource.key
  rw [← h.sound.lookup_isSome, h.refines.streamVector]
  exact hcovers resource hresource item hitem

/-- The keys of the directory have no terminator. -/
theorem Publishing.Sound.lookup_directory {s : Publishing} (h : s.Sound) {name : Text}
    {stream : Nat} (hname : s.streams.directory.lookup name = some stream) :
    '\x00' ∉ name := by
  rw [h.directory, lookup_emplaceAll, List.lookup_nil, Option.none_or] at hname
  obtain ⟨entry, _, heq⟩ := List.mem_map.mp (mem_of_lookup hname)
  rw [← (Prod.mk.inj heq).1]
  exact not_mem_cStr entry.1

/-- Where no RIC contains a terminator the directory is the vector of streams. -/
theorem Publishing.Sound.directory_eq {s : Publishing} (h : s.Sound)
    (hrics : ∀ ric ∈ s.created, '\x00' ∉ ric) :
    s.streams.directory = emplaceAll [] s.streamVector := by
  have hsame : s.created.zipIdx.map (fun entry => (cStr entry.1, entry.2)) = s.created.zipIdx := by
    refine (List.map_congr_left fun entry hentry => ?_).trans (List.map_id _)
    rw [cStr_of_not_mem (hrics entry.1 (List.fst_mem_of_mem_zipIdx hentry))]
    rfl
  rw [h.directory, hsame, h.streamVector]

/-- After the loop there is one stream for each RIC exactly when no RIC contains a terminator. -/
theorem oneStreamEach_iff {config : Config} {sessions : List Session}
    (hok : (publishResources config tokens sessions).1 = .ok ()) :
    OneStreamEach config (publishResources config tokens sessions).2 ↔
      ∀ ric ∈ config.resources.flatMap Resource.rics, '\x00' ∉ ric := by
  have hfollows := publishResources_follows hok
  have hsound := hfollows.sound
  constructor
  · intro h ric hric
    obtain ⟨stream, hstream⟩ := Option.isSome_iff_exists.mp ((h.vector ric).mpr hric)
    exact hsound.lookup_directory (h.directory ric stream hstream)
  · intro hrics
    have hcreated : ∀ ric ∈ (publishResources config tokens sessions).2.created,
        '\x00' ∉ ric := fun ric hric => hrics ric (hfollows.only ric hric)
    refine ⟨hsound.nodup, hfollows.mem_created, ?_, fun ric => ?_, ?_, fun ric stream hric => ?_,
      fun ric stream ric' stream' hrefers hrefers' => ?_⟩
    · have hsame : (publishResources config tokens sessions).2.created.map cStr =
          (publishResources config tokens sessions).2.created :=
        (List.map_congr_left fun ric hric => cStr_of_not_mem (hcreated ric hric)).trans
          (List.map_id _)
      rw [hsame]
      exact hsound.nodup
    · rw [hsound.lookup_isSome, hfollows.mem_created]
    · rw [hsound.streamVector, List.zipIdx_map_fst, List.zipIdx_map_snd]
      exact ⟨hsound.nodup, List.nodup_range'⟩
    · rw [hsound.directory_eq hcreated, lookup_emplaceAll, List.lookup_nil, Option.none_or]
      exact hric
    · have hplace := hsound.getElem? (hfollows.refers hrefers)
      have hplace' := hsound.getElem? (hfollows.refers hrefers')
      constructor
      · rintro rfl
        exact Option.some.inj (hplace.symm.trans hplace')
      · rintro rfl
        exact Option.some.inj
          ((hfollows.refers hrefers).symm.trans (hfollows.refers hrefers'))

/-- After `Init`, whatever became of the set-up of the sessions, there is one stream for each RIC
exactly when no RIC contains a terminator. -/
theorem one_stream_iff (verified : Bool) (calls : List SetupCalls) (config : Config)
    (tokens : Nat → Nat → Option Nat) :
    OneStreamEach config
        (publishResources config tokens (providerInit verified calls).2.provider.sessions).2 ↔
      ∀ ric ∈ config.resources.flatMap Resource.rics, '\x00' ∉ ric := by
  refine oneStreamEach_iff (publishResources_ok config tokens fun session hsession => ?_)
  obtain ⟨entry, _, rfl⟩ := List.mem_map.mp hsession
  rfl

/-- Two RICs that differ behind a terminator only. -/
def terminatedConfig : Config :=
  { sampleConfig with
    resources := [{ sampleResource with
      items := [("1679".toList, "MPTRXUS01".toList, "Equities".toList),
        ("50".toList, "MPTRXUS01\x00".toList, "Energy".toList)] }] }

/-- The directory is given the name of both. -/
theorem terminated_ric_duplicated :
    terminatedConfig.validate = true ∧
    ¬ OneStreamEach terminatedConfig
      (publishResources terminatedConfig (fun _ n => some n)
        (providerInit true [{ login := some ⟨14, 1⟩ }]).2.provider.sessions).2 := by
  refine ⟨by decide, fun h => ?_⟩
  exact absurd h.names (by decide)

end Psych
