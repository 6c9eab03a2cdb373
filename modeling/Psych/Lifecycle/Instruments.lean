import Psych.Http.Connection
import Psych.Library.Emplace
import Psych.Model.Sample
import Psych.Rfa.Provider

/-!
# The published instruments

The loop of `Init` that creates a connection, the streams and the sector map of each resource.
`connections_` and `query_vector_` are ordered by `resource_compare_t`, which looks at paths
alone, and `emplace` keeps the entry that is there. So of several resources with one path the
first is served, and nothing is said of the others.

* `publishInstruments_spec`: what the three maps hold after the loop.
* `publishInstruments_streams`: the streams are those of `Provider.create`.
* `served_in_full_iff`: every resource and item is served exactly when no two different resources
  have the same path.
-/

namespace Psych

open Emplace

/-- What `resource_compare_t` tells resources apart by. -/
def Resource.key (resource : Resource) : Text := resource.path

/-- Sector to topic and stream; a stream is named by its place among the created ones. -/
abbrev NameMap := List (Text × Text × Nat)

structure Instruments where
  /-- `connections_`. -/
  connections : List (Text × Connection) := []
  /-- `stream_vector_`. -/
  streamVector : List (Text × Nat) := []
  /-- `query_vector_`. -/
  queryVector : List (Text × NameMap) := []
  /-- The streams of `provider_`. -/
  streams : Streams := {}

/-! ## The loop -/

/-- The connection of a resource. -/
def connectionOf (config : Config) (resource : Resource) : Connection where
  resource := resource
  url := config.baseUrl ++ resource.path

/-- The stream of a RIC, created where there is none; a RIC may not be unique. -/
def Instruments.stream (sessions : Nat) (ric : Text) (s : Instruments) : Nat × Instruments :=
  match s.streamVector.lookup ric with
  | some stream => (stream, s)
  | none =>
    (s.streams.stream.length,
      { s with
        streams := s.streams.createItemStream sessions ric
        streamVector := emplace s.streamVector (ric, s.streams.stream.length) })

/-- One item of a resource. -/
def addItem (sessions : Nat) (acc : Instruments × NameMap) (item : Text × Text × Text) :
    Instruments × NameMap :=
  let (stream, s) := acc.1.stream sessions item.2.1
  (s, emplace acc.2 (item.1, item.2.2, stream))

/-- One resource. -/
def addResource (config : Config) (s : Instruments) (resource : Resource) : Instruments :=
  let s :=
    { s with connections := emplace s.connections (resource.key, connectionOf config resource) }
  let (s, nameMap) := resource.items.foldl (addItem config.sessions.length) (s, [])
  { s with queryVector := emplace s.queryVector (resource.key, nameMap) }

/-- The state for published instruments. -/
def publishInstruments (config : Config) : Instruments :=
  config.resources.foldl (addResource config) {}

/-! ## Streams -/

/-- The stream vector and the directory of the provider name the same streams. -/
def Instruments.Agree (s : Instruments) : Prop := s.streamVector = s.streams.directory

theorem stream_spec (sessions : Nat) (ric : Text) (s : Instruments) :
    s.streamVector <+: (s.stream sessions ric).2.streamVector ∧
      (s.stream sessions ric).2.streamVector.lookup ric = some (s.stream sessions ric).1 ∧
      (s.stream sessions ric).2.connections = s.connections ∧
      (s.stream sessions ric).2.queryVector = s.queryVector := by
  unfold Instruments.stream
  cases hric : s.streamVector.lookup ric with
  | some stream => exact ⟨List.prefix_refl _, hric, rfl, rfl⟩
  | none =>
    refine ⟨?_, ?_, rfl, rfl⟩
    · simp [emplace_of_none, hric]
    · simp [emplace_of_none, List.lookup_append, hric]

theorem stream_streams (sessions : Nat) (ric : Text) {s : Instruments} (h : s.Agree) :
    (s.stream sessions ric).2.Agree ∧
      (s.stream sessions ric).2.streams = s.streams.createItemStream sessions ric := by
  unfold Instruments.Agree at h
  unfold Instruments.stream Instruments.Agree Streams.createItemStream
  cases hric : s.streamVector.lookup ric with
  | some stream =>
    rw [h] at hric
    simp [h, hric]
  | none =>
    have hdirectory : s.streams.directory.lookup ric = none := h ▸ hric
    simp [emplace_of_none, h, hdirectory]

theorem addItems_streams (sessions : Nat) (items : List (Text × Text × Text)) {s : Instruments}
    (h : s.Agree) (nameMap : NameMap) :
    (items.foldl (addItem sessions) (s, nameMap)).1.Agree ∧
      (items.foldl (addItem sessions) (s, nameMap)).1.streams =
        (items.map fun item => item.2.1).foldl (Streams.createItemStream sessions) s.streams := by
  induction items generalizing s nameMap with
  | nil => exact ⟨h, rfl⟩
  | cons item items ih =>
    obtain ⟨hagree, hstreams⟩ := stream_streams sessions item.2.1 h
    rw [List.map_cons, List.foldl_cons, List.foldl_cons, ← hstreams]
    exact ih hagree _

theorem addResources_streams (config : Config) (resources : List Resource) {s : Instruments}
    (h : s.Agree) : (resources.foldl (addResource config) s).Agree ∧
      (resources.foldl (addResource config) s).streams =
        (resources.flatMap Resource.rics).foldl
          (Streams.createItemStream config.sessions.length) s.streams := by
  induction resources generalizing s with
  | nil => exact ⟨h, rfl⟩
  | cons resource resources ih =>
    obtain ⟨hagree, hstreams⟩ := addItems_streams config.sessions.length resource.items
      (s := { s with
        connections := emplace s.connections (resource.key, connectionOf config resource) }) h []
    rw [List.foldl_cons, List.flatMap_cons, List.foldl_append]
    obtain ⟨hagree', hstreams'⟩ := ih (s := addResource config s resource) hagree
    refine ⟨hagree', hstreams'.trans ?_⟩
    rw [Resource.rics, ← hstreams]
    rfl

/-- The loop creates the streams that the provider is modelled with. -/
theorem publishInstruments_streams (config : Config) :
    (publishInstruments config).streams =
      (Provider.create config.sessions.length config.resources).streams :=
  (addResources_streams config config.resources (s := {}) rfl).2

/-! ## The maps -/

/-- The sector map of a resource, where the streams are those of `streamVector`. -/
def nameMapOf (streamVector : List (Text × Nat)) (items : List (Text × Text × Text)) : NameMap :=
  items.map fun item => (item.1, item.2.2, (streamVector.lookup item.2.1).getD 0)

/-- Streams that are there stay the same. -/
theorem nameMapOf_of_prefix {old new : List (Text × Nat)} (h : old <+: new)
    {items : List (Text × Text × Text)}
    (hcovers : ∀ item ∈ items, (old.lookup item.2.1).isSome = true) :
    nameMapOf old items = nameMapOf new items := by
  refine List.map_congr_left fun item hitem => ?_
  obtain ⟨stream, hstream⟩ := Option.isSome_iff_exists.mp (hcovers item hitem)
  rw [hstream, h.lookup_eq_some hstream]

theorem isSome_lookup_of_prefix {old new : List (Text × Nat)} (h : old <+: new) {ric : Text}
    (hric : (old.lookup ric).isSome = true) : (new.lookup ric).isSome = true := by
  obtain ⟨stream, hstream⟩ := Option.isSome_iff_exists.mp hric
  rw [h.lookup_eq_some hstream]
  rfl

theorem addItems_spec (sessions : Nat) (items : List (Text × Text × Text)) (s : Instruments)
    (nameMap : NameMap) :
    let r := items.foldl (addItem sessions) (s, nameMap)
    s.streamVector <+: r.1.streamVector ∧
      (∀ item ∈ items, (r.1.streamVector.lookup item.2.1).isSome = true) ∧
      r.1.connections = s.connections ∧ r.1.queryVector = s.queryVector ∧
      r.2 = emplaceAll nameMap (nameMapOf r.1.streamVector items) := by
  induction items generalizing s nameMap with
  | nil => exact ⟨List.prefix_refl _, by simp, rfl, rfl, rfl⟩
  | cons item items ih =>
    obtain ⟨hgrows, hlookup, hconnections, hquery⟩ := stream_spec sessions item.2.1 s
    obtain ⟨hgrows', hcovers, hconnections', hquery', hmap⟩ :=
      ih (s.stream sessions item.2.1).2
        (emplace nameMap (item.1, item.2.2, (s.stream sessions item.2.1).1))
    refine ⟨hgrows.trans hgrows', List.forall_mem_cons.mpr ⟨?_, hcovers⟩,
      hconnections'.trans hconnections, hquery'.trans hquery, hmap.trans ?_⟩
    · exact isSome_lookup_of_prefix hgrows' (by rw [hlookup]; rfl)
    · have hitem := hgrows'.lookup_eq_some hlookup
      change _ = emplaceAll _ ((item.1, item.2.2, _) :: _)
      rw [emplaceAll_cons]
      change _ = emplaceAll (emplace nameMap (item.1, item.2.2,
        (List.lookup item.2.1 (items.foldl (addItem sessions) ((s.stream sessions item.2.1).2,
          emplace nameMap (item.1, item.2.2, (s.stream sessions item.2.1).1))).1.streamVector).getD
            0)) _
      rw [hitem]
      rfl

/-- What one resource adds to the maps. -/
theorem addResource_spec (config : Config) (resource : Resource) (s : Instruments) :
    let r := addResource config s resource
    s.streamVector <+: r.streamVector ∧
      (∀ item ∈ resource.items, (r.streamVector.lookup item.2.1).isSome = true) ∧
      r.connections = emplace s.connections (resource.key, connectionOf config resource) ∧
      r.queryVector = emplace s.queryVector
        (resource.key, emplaceAll [] (nameMapOf r.streamVector resource.items)) := by
  obtain ⟨hgrows, hcovers, hconnections, hquery, hmap⟩ :=
    addItems_spec config.sessions.length resource.items
      { s with
        connections := emplace s.connections (resource.key, connectionOf config resource) } []
  refine ⟨hgrows, hcovers, hconnections, ?_⟩
  unfold addResource
  dsimp only
  rw [hquery, hmap]

/-- What the loop leaves in the maps, for the resources it goes through. -/
theorem addResources_spec (config : Config) (resources : List Resource) (s : Instruments) :
    let r := resources.foldl (addResource config) s
    s.streamVector <+: r.streamVector ∧
      (∀ resource ∈ resources, ∀ item ∈ resource.items,
        (r.streamVector.lookup item.2.1).isSome = true) ∧
      r.connections = emplaceAll s.connections
        (resources.map fun resource => (resource.key, connectionOf config resource)) ∧
      r.queryVector = emplaceAll s.queryVector (resources.map fun resource =>
        (resource.key, emplaceAll [] (nameMapOf r.streamVector resource.items))) := by
  induction resources generalizing s with
  | nil => exact ⟨List.prefix_refl _, by simp, rfl, rfl⟩
  | cons resource resources ih =>
    obtain ⟨hgrows, hcovers, hconnections, hquery⟩ := addResource_spec config resource s
    obtain ⟨hgrows', hcovers', hconnections', hquery'⟩ := ih (addResource config s resource)
    refine ⟨hgrows.trans hgrows', List.forall_mem_cons.mpr ⟨fun item hitem => ?_, hcovers'⟩,
      hconnections'.trans ?_, hquery'.trans ?_⟩
    · exact isSome_lookup_of_prefix hgrows' (hcovers item hitem)
    · rw [List.map_cons, emplaceAll_cons, hconnections]
    · rw [List.map_cons, emplaceAll_cons, hquery, nameMapOf_of_prefix hgrows' hcovers]
      rfl

/-- The three maps after the loop: the first resource of each path is served. -/
theorem publishInstruments_spec (config : Config) (path : Text) :
    let s := publishInstruments config
    let served := config.resources.find? fun resource => resource.key == path
    s.connections.lookup path = served.map (connectionOf config) ∧
      s.queryVector.lookup path =
        served.map (fun resource => emplaceAll [] (nameMapOf s.streamVector resource.items)) ∧
      ∀ resource ∈ config.resources, ∀ item ∈ resource.items,
        (s.streamVector.lookup item.2.1).isSome = true := by
  obtain ⟨_, hcovers, hconnections, hquery⟩ := addResources_spec config config.resources {}
  refine ⟨?_, ?_, hcovers⟩
  · unfold publishInstruments
    rw [hconnections, lookup_emplaceAll, lookup_entries]
    rfl
  · unfold publishInstruments
    rw [hquery, lookup_emplaceAll, lookup_entries]
    rfl

/-! ## Service -/

/-- Every resource has a connection of its own, and every item its topic and stream. -/
def ServedInFull (config : Config) (s : Instruments) : Prop :=
  ∀ resource ∈ config.resources,
    (∃ connection, s.connections.lookup resource.key = some connection ∧
      connection.resource = resource ∧ connection.url = config.baseUrl ++ resource.path) ∧
    ∃ nameMap, s.queryVector.lookup resource.key = some nameMap ∧
      ∀ sector ric topic, resource.items.lookup sector = some (ric, topic) →
        ∃ stream, nameMap.lookup sector = some (topic, stream) ∧
          s.streamVector.lookup ric = some stream

/-- The sector map of a resource has the topic and the stream of each item. -/
theorem lookup_nameMap {streamVector : List (Text × Nat)} {items : List (Text × Text × Text)}
    (hcovers : ∀ item ∈ items, (streamVector.lookup item.2.1).isSome = true)
    {sector ric topic : Text} (hitem : items.lookup sector = some (ric, topic)) :
    ∃ stream, (emplaceAll [] (nameMapOf streamVector items)).lookup sector = some (topic, stream) ∧
      streamVector.lookup ric = some stream := by
  obtain ⟨stream, hstream⟩ := Option.isSome_iff_exists.mp (hcovers _ (mem_of_lookup hitem))
  refine ⟨stream, ?_, hstream⟩
  rw [lookup_emplaceAll, List.lookup_nil, Option.none_or, nameMapOf,
    lookup_map_values fun item : Text × Text => (item.2, (streamVector.lookup item.1).getD 0),
    hitem]
  simp [hstream]

/-- After the loop every resource and every item is served exactly when no two different resources
have the same path. -/
theorem served_in_full_iff (config : Config) :
    ServedInFull config (publishInstruments config) ↔
      ∀ a ∈ config.resources, ∀ b ∈ config.resources, a.path = b.path → a = b := by
  constructor
  · intro h a ha b hb hpath
    obtain ⟨⟨connection, hfound, hresource, _⟩, _⟩ := h a ha
    obtain ⟨⟨connection', hfound', hresource', _⟩, _⟩ := h b hb
    rw [show b.key = a.key from hpath.symm, hfound] at hfound'
    cases hfound'
    rw [← hresource, hresource']
  · intro h resource hmem
    obtain ⟨hconnections, hquery, hcovers⟩ := publishInstruments_spec config resource.key
    have hfind : config.resources.find? (fun other => other.key == resource.key) =
        some resource := by
      cases hf : config.resources.find? (fun other => other.key == resource.key) with
      | none => simpa using List.find?_eq_none.mp hf resource hmem
      | some other =>
        have hkey : other.key = resource.key := by simpa using List.find?_some hf
        rw [h other (List.mem_of_find?_eq_some hf) resource hmem hkey]
    rw [hfind] at hconnections hquery
    refine ⟨⟨_, hconnections, rfl, rfl⟩, _, hquery, fun sector ric topic hitem => ?_⟩
    exact lookup_nameMap (hcovers resource hmem) hitem

/-! ## Two resources with one path -/

/-- The sample resource and one for other sectors, with the same path. -/
def twoResources : Config :=
  { sampleConfig with
    resources := [sampleResource,
      { sampleResource with
        name := "energy".toList
        items := [("50".toList, "MPTRXUS02".toList, "Energy".toList)] }] }

/-- The configuration is valid, and its second resource is dropped. -/
theorem second_resource_dropped :
    twoResources.validate = true ∧ ¬ ServedInFull twoResources (publishInstruments twoResources) := by
  refine ⟨by decide, fun h => ?_⟩
  obtain ⟨⟨connection, hfound, hresource, _⟩, _⟩ :=
    h { sampleResource with
        name := "energy".toList
        items := [("50".toList, "MPTRXUS02".toList, "Energy".toList)] } (by simp [twoResources])
  have hfirst : (publishInstruments twoResources).connections.lookup "/equities".toList =
      some (connectionOf twoResources sampleResource) := by decide
  rw [show Resource.key _ = "/equities".toList from rfl, hfirst] at hfound
  cases hfound
  revert hresource
  decide

end Psych
