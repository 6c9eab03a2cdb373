import Psych.Http.RoundTrip
import Psych.Publish.CloseTime

/-!
# What is published of a feed

`FeedFile.contents` says what subscribers are to see of a feed, in terms of the feed alone: for each
row with an item a message under its RIC, with the version and the close time of the feed and an
entry for each column that has a field. `SendRefresh` hands over these messages for the table the
feed is read back as (`handed_feed`).
-/

namespace Psych

/-! ## Contents of a feed -/

/-- The entries every message of a feed has. -/
def FeedFile.commonEntries (feed : FeedFile) (resource : Resource) (topic : Text) :
    List (Int × FieldData) :=
  [(kRdmStockRicId, .asciiString (cStr topic)),
    (kRdmSourceFeedNameId, .rmtesString (cStr resource.source)),
    (kRdmEngineVersionId, .rmtesString (cStr feed.version)),
    (kRdmTimeOfUpdateId, .time feed.closeTime.hour feed.closeTime.min feed.closeTime.sec 0),
    (kRdmActiveDateId, .date feed.closeTime.year feed.closeTime.month feed.closeTime.day)]

/-- The messages of a feed, one for each row with an item. -/
def FeedFile.contents (platform : Platform) (resource : Resource) (feed : FeedFile) :
    List Content :=
  feed.rows.zipIdx.filterMap fun row =>
    (resource.items.lookup row.1.1).map fun item =>
      { name := item.1
        fields := feed.commonEntries resource item.2 ++
          dueFields platform resource feed.columns row.2 (row.1.1 :: row.1.2) }

/-- A feed that `SendRefresh` can date and map to fields. -/
structure Publishable (resource : Resource) (feed : FeedFile) : Prop where
  label : ∀ name, feed.columns.head? = some name → resource.fields.lookup name = none
  dated : 0 ≤ feed.closeTime.ticks ∧ feed.closeTime.ticks ≤ longMax * ticksPerSecond

/-! ## The close time -/

def CalendarTime.moment (t : CalendarTime) : BoostTime where
  year := t.year
  month := t.month
  day := t.day
  hour := t.hour
  minute := t.min
  second := t.sec
  microsecond := 0
  years := t.year_range
  date := ⟨t.month_range, t.day_range⟩
  time := ⟨t.hour_lt, t.min_lt, t.sec_lt⟩
  fraction := Nat.succ_pos 999999

theorem CalendarTime.ticks_moment (t : CalendarTime) : t.ticks = t.moment.ticks := by
  unfold CalendarTime.ticks BoostTime.ticks BoostTime.seconds CalendarTime.moment ticksPerDay
  push_cast
  ring

theorem commonFields_feed {platform : Platform} {resource : Resource} {feed : FeedFile}
    (h : Publishable resource feed) (topic : Text) :
    commonFields resource (feed.table platform) topic = feed.commonEntries resource topic := by
  obtain ⟨hlow, hhigh⟩ := h.dated
  rw [feed.closeTime.ticks_moment] at hlow hhigh
  have hseconds : 0 ≤ feed.closeTime.moment.seconds ∧
      feed.closeTime.moment.seconds ≤ longMax := by
    have hmicro : feed.closeTime.moment.microsecond = 0 := rfl
    unfold BoostTime.ticks ticksPerSecond at hlow hhigh
    rw [hmicro] at hlow hhigh
    omega
  obtain ⟨hdays, hhour, hminute, hsecond⟩ := feed.closeTime.moment.seconds_parts
  have htime : toUnixEpoch (some feed.closeTime.ticks) = feed.closeTime.moment.seconds := by
    rw [feed.closeTime.ticks_moment]
    exact BoostTime.time32_of_fits hseconds.1 hseconds.2
  have hdate := activeDate_gmtime32 hseconds.1 hseconds.2
  rw [hdays, civilFromDays_daysFromCivil feed.closeTime.moment.date] at hdate
  have hgm : gmtime32 feed.closeTime.moment.seconds = {
      sec := feed.closeTime.moment.seconds % 86400 % 60
      min := feed.closeTime.moment.seconds % 86400 / 60 % 60
      hour := feed.closeTime.moment.seconds % 86400 / 3600
      mday := (civilFromDays (feed.closeTime.moment.seconds / 86400)).2.2
      mon := (civilFromDays (feed.closeTime.moment.seconds / 86400)).2.1 - 1
      year := (civilFromDays (feed.closeTime.moment.seconds / 86400)).1 - 1900 } :=
    if_pos hseconds
  unfold commonFields FeedFile.commonEntries
  show _ = [_, _, _, (kRdmTimeOfUpdateId, FieldData.time feed.closeTime.moment.hour
    feed.closeTime.moment.minute feed.closeTime.moment.second 0), _]
  rw [← hhour, ← hminute, ← hsecond]
  dsimp only [FeedFile.table]
  rw [htime, hdate, hgm]
  rfl

/-! ## The messages -/

/-- Every item has its own name as the name of its stream. -/
def Streams.Named (streams : Streams) : Prop :=
  ∀ (ric : Text) (i : Nat) (stream : ItemStream), streams.find ric = some (i, stream) →
    stream.rfaName = ric

theorem Streams.Named.of_same {streams streams' : Streams} (h : streams.Named)
    (hsame : SameStreams streams streams') : streams'.Named := by
  intro ric i stream hfind
  obtain ⟨stream', hfind', hname⟩ := hsame.find_name hfind
  exact hname.symm.trans (h _ _ _ hfind')

theorem createItemStream_named {sessions : Nat} {streams : Streams}
    (hfit : streams.Fit sessions) (h : streams.Named) (ric : Text) :
    (streams.createItemStream sessions ric).Named := by
  intro name i stream hfind
  rw [find_eq_some_iff] at hfind
  obtain ⟨hdirectory, hstream⟩ := hfind
  unfold Streams.createItemStream at hdirectory hstream
  split at hdirectory
  · rename_i hsome
    rw [if_pos hsome] at hstream
    exact h _ _ _ (find_eq_some_iff.mpr ⟨hdirectory, hstream⟩)
  · rename_i hnone
    rw [if_neg hnone] at hstream
    rw [List.lookup_append] at hdirectory
    rcases Option.or_eq_some_iff.mp hdirectory with hold | ⟨_, hnew⟩
    · have hlt := hfit.directory hold
      rw [List.getElem?_append_left hlt] at hstream
      exact h _ _ _ (find_eq_some_iff.mpr ⟨hold, hstream⟩)
    · rw [List.lookup_cons] at hnew
      split at hnew
      · rename_i heq
        cases hnew
        rw [List.getElem?_append_right (Nat.le_refl _), Nat.sub_self] at hstream
        cases hstream
        exact (eq_of_beq heq).symm
      · cases hnew

theorem create_named (sessions : Nat) (resources : List Resource) :
    (Provider.create sessions resources).streams.Named := by
  suffices hall : ∀ (rics : List Text) (streams : Streams), streams.Fit sessions →
      streams.Named → (rics.foldl (Streams.createItemStream sessions) streams).Named from
    hall (resources.flatMap Resource.rics) {} ⟨by simp, by simp⟩
      (by simp [Streams.Named, Streams.find])
  intro rics
  induction rics with
  | nil => exact fun streams _ h => h
  | cons ric rics ih =>
    intro streams hfit h
    exact ih _ (createItemStream_fit hfit ric) (createItemStream_named hfit h ric)

variable {platform : Platform} {resource : Resource} {feed : FeedFile}

theorem rowMessages_feed (h : Publishable resource feed) {streams : Streams}
    (hnamed : streams.Named)
    (hcovers : ∀ ric ∈ resource.rics, ∃ i stream, streams.find ric = some (i, stream)) :
    (feed.table platform).rows.zipIdx.filterMap
        (rowMessage streams resource (feed.table platform)) =
      feed.contents platform resource := by
  have hrows : (feed.table platform).rows.zipIdx = feed.rows.zipIdx.map fun row =>
      ((row.1.1, readValues platform row.2 1 row.1.2), row.2) := by
    unfold FeedFile.table
    dsimp only
    rw [List.zipIdx_map, zipIdx_zipIdx, List.map_map]
    rfl
  unfold FeedFile.contents
  rw [hrows, List.filterMap_map]
  refine List.filterMap_congr fun row hrow => ?_
  unfold rowMessage
  dsimp only [Function.comp_apply]
  cases hitem : resource.items.lookup row.1.1 with
  | none => rfl
  | some item =>
    obtain ⟨ric, topic⟩ := item
    obtain ⟨i, stream, hfind⟩ := hcovers ric (Resource.ric_mem hitem)
    have hlen : (row.1.1 :: row.1.2).length = feed.columns.length :=
      feed.rows_shape row.1 (List.fst_mem_of_mem_zipIdx hrow)
    have hentries := columnEntries_eq platform resource row.2 h.label hlen
    dsimp only
    rw [hfind, commonFields_feed h, Option.map_some, Option.map_some, hnamed _ _ _ hfind]
    simp only [List.tail_cons] at hentries
    rw [← hentries]
    rfl

/-- What is handed over for the table of a feed are the messages of the feed. -/
theorem handed_feed (h : Publishable resource feed) (config : Config) {provider : Provider}
    (hready : provider.Ready resource) (hnamed : provider.streams.Named)
    {calls : Nat → RowCalls} (hcalls : ∀ k, (calls k).Benign) :
    (sendRefresh config resource (feed.table platform) calls provider).1 = .ok () ∧
      (sendRefresh config resource (feed.table platform) calls
        provider).2.handed.reverse.map Message.content = feed.contents platform resource := by
  have hrectangular : (feed.table platform).Rectangular := fun row hrow =>
    feed.table_shape platform hrow
  have hok : (sendRefresh config resource (feed.table platform) calls provider).1 = .ok () := by
    apply (sendRefresh_benign config _ hready hcalls).1.mpr
    intro row hrow _
    apply (indexed_rectangular hrectangular hrow).mpr
    intro name hname
    rw [h.label name hname]
    simp
  refine ⟨hok, ?_⟩
  rw [(sendRefresh_messages config resource _ calls provider).2 hok]
  exact rowMessages_feed h hnamed hready.covers

end Psych
