import Psych.Publish.Encoder
import Psych.Publish.Handed
import Psych.Publish.Usable
import Psych.Query.Messages

/-!
# What messages share

All responses of a round are read into the same five variables and encoded with the same two
members of `psych_t`; only four of the variables are reset between messages, and the variables a
cell is extracted into are not initialised. `Shared` carries all of this from one message to the
next, and `handleShared_eq` says that `handleMessage` is right to leave it out. A response that
does not end the round publishes the same contents whatever the others have left there
(`handleShared_published`).
-/

namespace Psych

/-! ## The shared state -/

structure Shared where
  query : Query
  /-- `engine_version`, `open_time`, `close_time`, `columns` and `rows`. -/
  table : Table := {}
  /-- `fields_` and `single_write_it_`. -/
  encoder : Encoder := {}
  /-- What was given to `provider_t::Send` for which connection, newest first; not in the
  source. -/
  published : List (Nat × Content) := []

/-- `open_time = close_time = not_a_date_time; columns.clear (); rows.clear ();`. -/
def Table.reset (table : Table) : Table :=
  { table with openTime := none, closeTime := none, columns := [], rows := [] }

/-- `SendRefresh` on the table that was read, with the members as they are. -/
def Shared.publish (config : Config) (c : Nat) (report : Report) (s : Shared) :
    Except Fault Unit × Shared :=
  let resource := (s.query.state.connections c).resource
  let r := sendRefreshOn config resource s.table report.calls s.query.state.provider s.encoder
  (caught r.1, { s with
    query := { s.query with
      state := { s.query.state.observe
        (.refresh c report.transfer resource s.table report.calls s.query.state.provider) with
        provider := r.2.1.provider } }
    encoder := r.2.2
    published := r.2.1.handed.map (fun message => (c, message.content)) ++ s.published })

/-- One message of the information queue, with all that the messages share. -/
def handleShared (platform : Platform) (config : Config) (message : Nat × Report) (s : Shared) :
    Except Fault Unit × Shared :=
  let r := onHttpResponse platform config message.2.transfer
    { connection := s.query.state.connections message.1, stats := s.query.state.stats,
      table := s.table.reset }
  let s := { s with
    query := s.query.store message.1 message.2.transfer r.2
    table := r.2.table }
  match r.1 with
  | .error e => (.error e, s)
  | .ok false =>
    (.ok (), { s with query := { s.query with state := s.query.state.tally .httpMalformed 1 } })
  | .ok true =>
    match s.publish config message.1 message.2 with
    | (.error e, s) => (.error e, s)
    | (.ok (), s) =>
      ((s.query.accept message.1 message.2.transfer).1,
        { s with query := (s.query.accept message.1 message.2.transfer).2 })

/-- The query knows the engine version that is left in the shared variable. -/
def Shared.consistent (s : Shared) : Prop := s.query.engineVersion = s.table.engineVersion

theorem Shared.consistent.reset {s : Shared} (h : s.consistent) :
    s.table.reset = freshTable s.query.engineVersion := by
  rw [h]
  rfl

variable {platform : Platform} {config : Config}

/-- Without what is shared this is `handleMessage`. -/
theorem handleShared_eq (platform : Platform) (config : Config) (message : Nat × Report)
    {s : Shared} (h : s.consistent) :
    (handleShared platform config message s).1 = (handleMessage platform config message s.query).1 ∧
      (handleShared platform config message s).2.query =
        (handleMessage platform config message s.query).2 ∧
      (handleShared platform config message s).2.consistent := by
  unfold handleShared handleMessage respond
  rw [h.reset]
  dsimp only
  cases (onHttpResponse platform config message.2.transfer
      { connection := s.query.state.connections message.1, stats := s.query.state.stats,
        table := freshTable s.query.engineVersion }) with
  | mk verdict r =>
    cases verdict with
    | error e => exact ⟨rfl, rfl, rfl⟩
    | ok accepted =>
      cases accepted with
      | false => exact ⟨rfl, rfl, rfl⟩
      | true =>
        dsimp only
        unfold Shared.publish Query.publish
        dsimp only
        obtain ⟨hfst, hsnd⟩ := sendRefreshOn_eq config
          ((s.query.store message.1 message.2.transfer r).state.connections message.1).resource
          r.table message.2.calls (s.query.store message.1 message.2.transfer r).state.provider
          s.encoder
        rw [hfst, hsnd]
        cases caught (sendRefresh config
          ((s.query.store message.1 message.2.transfer r).state.connections message.1).resource
          r.table message.2.calls
          (s.query.store message.1 message.2.transfer r).state.provider).1 with
        | error e => exact ⟨rfl, rfl, rfl⟩
        | ok _ => exact ⟨rfl, rfl, accept_engineVersion _ _ _⟩

/-! ## What a response does on its own -/

/-- A failed extraction stores 0, and so does not keep what the variable held. -/
def Platform.zeroOnFailure (platform : Platform) : Prop :=
  ∃ number : Text → Option Value, ∀ text f, platform.extract text f = (number text).getD (.real 0)

/-- What the uninitialised variables hold while a message is handled. -/
abbrev Garbage := Nat → Nat → Value

def Platform.withGarbage (platform : Platform) (garbage : Garbage) : Platform :=
  { platform with uninitialised := garbage }

/-- The contents that a response publishes on its own, with nothing left from others. -/
def ownContents (platform : Platform) (config : Config) (streams : Streams) (transfer : Transfer)
    (connection : Connection) : List Content :=
  match respond platform config transfer connection (fun _ => 0) [] with
  | (.ok true, r) => tableContents streams connection.resource r.table
  | _ => []

/-- The response ends the round: it has no content type where one is read, or one of the times of
its `Timing` line cannot be rendered. -/
def faulty (platform : Platform) (config : Config) (transfer : Transfer)
    (connection : Connection) : Prop :=
  readsNull platform transfer ∨
    (reachesTable config transfer connection ∧ tableAccepted platform connection.data = true ∧
      rendered platform transfer connection = false)

/-- The response is accepted, and one of its rows has an item. -/
def publishes (platform : Platform) (config : Config) (transfer : Transfer)
    (connection : Connection) : Prop :=
  accepts platform config transfer connection ∧
    ∃ label ∈ rowLabels (bodyLines connection.data),
      (connection.resource.items.lookup label).isSome = true

variable {transfer : Transfer} {connection : Connection}

theorem respond_fault_iff (platform : Platform) (config : Config) (transfer : Transfer)
    (connection : Connection) (stats : Stats) (engineVersion : Text) :
    (∃ e, (respond platform config transfer connection stats engineVersion).1 = .error e) ↔
      faulty platform config transfer connection := by
  unfold faulty
  by_cases hreach : reachesTable config transfer connection
  · rw [(respond_of_reaches hreach platform stats engineVersion).1]
    have hread := hreach.not_readsNull platform
    cases tableAccepted platform connection.data <;>
      cases rendered platform transfer connection <;> simp [hreach, hread]
  · rw [(respond_of_not_reaches hreach platform stats engineVersion).1]
    split <;> simp [*]

/-- The verdict does not depend on what is shared. -/
theorem respond_verdict (platform : Platform) (config : Config) (transfer : Transfer)
    (connection : Connection) (garbage : Garbage) (stats : Stats) (engineVersion : Text) :
    (respond (platform.withGarbage garbage) config transfer connection stats engineVersion).1 =
      (respond platform config transfer connection (fun _ => 0) []).1 := by
  by_cases hreach : reachesTable config transfer connection
  · rw [(respond_of_reaches hreach _ _ _).1, (respond_of_reaches hreach _ _ _).1]
    rfl
  · rw [(respond_of_not_reaches hreach _ _ _).1, (respond_of_not_reaches hreach _ _ _).1]
    rfl

theorem readValues_withGarbage (h : platform.zeroOnFailure) (garbage : Garbage) (row i : Nat)
    (cells : List Text) :
    readValues (platform.withGarbage garbage) row i cells = readValues platform row i cells := by
  obtain ⟨number, hnumber⟩ := h
  have hextract : ∀ text f g, platform.extract text f = platform.extract text g := by
    intro text f g
    rw [hnumber, hnumber]
  induction cells generalizing i with
  | nil => rfl
  | cons text cells ih =>
    rw [readValues, readValues, ih]
    exact congrArg (· :: _) (hextract text _ _)

theorem tableRows_withGarbage (h : platform.zeroOnFailure) (garbage : Garbage)
    (columns k : Nat) (lines : List Text) :
    tableRows (platform.withGarbage garbage) columns k lines =
      tableRows platform columns k lines := by
  unfold tableRows
  apply List.map_congr_left
  intro row _
  rw [readValues_withGarbage h]

/-- The table of a body with a line does not depend on what is shared. -/
theorem tableOf_withGarbage (h : platform.zeroOnFailure) (garbage : Garbage)
    (engineVersion : Text) {lines : List Text} (hne : lines ≠ []) :
    tableOf (platform.withGarbage garbage) engineVersion lines = tableOf platform [] lines := by
  cases lines with
  | nil => exact absurd rfl hne
  | cons timestamp lines =>
    unfold tableOf
    dsimp only
    rw [tableRows_withGarbage h]
    rfl

/-- The table of an accepted response does not depend on what is shared. -/
theorem respond_table_own (h : platform.zeroOnFailure) (garbage : Garbage) {stats : Stats}
    {engineVersion : Text}
    (haccepted : (respond (platform.withGarbage garbage) config transfer connection stats
      engineVersion).1 = .ok true) :
    (respond (platform.withGarbage garbage) config transfer connection stats
        engineVersion).2.table =
      (respond platform config transfer connection (fun _ => 0) []).2.table := by
  have haccepted' : (respond platform config transfer connection (fun _ => 0) []).1 = .ok true := by
    rw [← respond_verdict platform config transfer connection garbage stats engineVersion]
    exact haccepted
  obtain ⟨⟨_, ⟨contentType, _, hadmissible⟩, _⟩, _⟩ :=
    (respond_accepts_iff platform config transfer connection (fun _ => 0) []).mp haccepted'
  have hne := bodyLines_ne_nil hadmissible
  obtain ⟨htable, hbody⟩ := respond_table haccepted
  obtain ⟨htable', hbody'⟩ := respond_table haccepted'
  rw [htable, htable', scannedTable_eq engineVersion hbody, scannedTable_eq [] hbody']
  exact tableOf_withGarbage h garbage engineVersion hne

theorem ownContents_of_accepted {streams : Streams}
    (h : (respond platform config transfer connection (fun _ => 0) []).1 = .ok true) :
    ownContents platform config streams transfer connection =
      tableContents streams connection.resource
        (respond platform config transfer connection (fun _ => 0) []).2.table := by
  unfold ownContents
  cases hr : respond platform config transfer connection (fun _ => 0) [] with
  | mk verdict r =>
    rw [hr] at h
    dsimp only at h
    rw [h]

theorem ownContents_of_not_accepted {streams : Streams}
    (h : (respond platform config transfer connection (fun _ => 0) []).1 ≠ .ok true) :
    ownContents platform config streams transfer connection = [] := by
  unfold ownContents
  cases hr : respond platform config transfer connection (fun _ => 0) [] with
  | mk verdict r =>
    rw [hr] at h
    cases verdict with
    | error e => rfl
    | ok accepted =>
      cases accepted with
      | false => rfl
      | true => exact absurd rfl h

/-- A response publishes on its own exactly where an accepted row has an item. -/
theorem ownContents_ne_nil_iff {streams : Streams}
    (hcovers : ∀ ric ∈ connection.resource.rics, ∃ i stream, streams.find ric = some (i, stream)) :
    ownContents platform config streams transfer connection ≠ [] ↔
      publishes platform config transfer connection := by
  have haccepts := respond_accepts_iff platform config transfer connection (fun _ => 0) []
  unfold publishes
  by_cases hok : (respond platform config transfer connection (fun _ => 0) []).1 = .ok true
  · obtain ⟨htable, hbody⟩ := respond_table hok
    obtain ⟨_, _, hlabels⟩ := scannedTable_shape [] hbody
    rw [ownContents_of_accepted hok, tableContents_ne_nil_iff hcovers, htable,
      and_iff_right (haccepts.mp hok), bodyLines, ← hlabels]
    constructor
    · rintro ⟨row, hrow, hmapped⟩
      exact ⟨row.1, List.mem_map_of_mem hrow, hmapped⟩
    · rintro ⟨label, hlabel, hitem⟩
      obtain ⟨row, hrow, rfl⟩ := List.mem_map.mp hlabel
      exact ⟨row, hrow, hitem⟩
  · rw [ownContents_of_not_accepted hok, ← haccepts]
    exact iff_of_false (by simp) fun h => hok h.1

/-! ## One message -/

/-- The first column of the table is no configured field. -/
def labelUnmapped (connection : Connection) : Prop :=
  ∀ name, (columnNames (bodyLines connection.data)).head? = some name →
    ¬ (connection.resource.fields.lookup name).isSome = true

theorem indexed_of_labelUnmapped (h : labelUnmapped connection)
    (haccepted : (respond platform config transfer connection (fun _ => 0) []).1 = .ok true) :
    ∀ row ∈ (respond platform config transfer connection (fun _ => 0) []).2.table.rows,
      mapped connection.resource row → indexed connection.resource
        (respond platform config transfer connection (fun _ => 0) []).2.table row.2 := by
  obtain ⟨htable, hbody⟩ := respond_table haccepted
  obtain ⟨hrect, hcolumns, _⟩ := scannedTable_shape [] hbody
  rw [htable]
  intro row hrow _
  apply (indexed_rectangular hrect hrow).mpr
  rw [hcolumns]
  exact h

/-- A refresh whose mapped rows are indexed publishes the contents of its table. -/
theorem Shared.publish_contents (config : Config) (s : Shared) (c : Nat) (report : Report)
    {streams : Streams}
    (hready : s.query.state.provider.Ready (s.query.state.connections c).resource)
    (hcalls : ∀ k, (report.calls k).Benign)
    (hsame : SameStreams streams s.query.state.provider.streams)
    (hindexed : ∀ row ∈ s.table.rows, mapped (s.query.state.connections c).resource row →
      indexed (s.query.state.connections c).resource s.table row.2) :
    (s.publish config c report).1 = .ok () ∧
      (s.publish config c report).2.published =
        ((tableContents streams (s.query.state.connections c).resource s.table).map
          fun content => (c, content)).reverse ++ s.published ∧
      (s.publish config c report).2.query.pending = s.query.pending ∧
      SameStreams streams (s.publish config c report).2.query.state.provider.streams ∧
      ∀ resource, s.query.state.provider.Ready resource →
        (s.publish config c report).2.query.state.provider.Ready resource := by
  obtain ⟨hok, hhanded, hstreams, hkeep⟩ :=
    sendRefresh_contents config hready hcalls hsame hindexed
  obtain ⟨hfst, hsnd⟩ := sendRefreshOn_eq config (s.query.state.connections c).resource s.table
    report.calls s.query.state.provider s.encoder
  unfold Shared.publish
  dsimp only
  rw [hfst, hsnd, hok]
  refine ⟨rfl, ?_, rfl, hstreams, hkeep⟩
  rw [← List.map_reverse, ← hhanded, List.map_map]
  rfl

/-- What is asked of a message and of the state it is handled in. -/
structure Fit (streams : Streams) (message : Nat × Report) (s : Shared) : Prop where
  consistent : s.consistent
  pending : message.1 ∈ s.query.pending
  ready : s.query.state.provider.Ready (s.query.state.connections message.1).resource
  same : SameStreams streams s.query.state.provider.streams
  calls : ∀ k, (message.2.calls k).Benign
  label : labelUnmapped (s.query.state.connections message.1)

/-- The provider that a message leaves to the next ones. -/
structure Kept (streams : Streams) (s s' : Shared) : Prop where
  same : SameStreams streams s'.query.state.provider.streams
  ready : ∀ resource, s.query.state.provider.Ready resource →
    s'.query.state.provider.Ready resource

/-- The shared state after the response of a message was looked at. -/
def Shared.read (platform : Platform) (config : Config) (message : Nat × Report) (s : Shared) :
    Shared :=
  { s with
    query := s.query.store message.1 message.2.transfer (s.query.verdict platform config message).2
    table := (s.query.verdict platform config message).2.table }

theorem handleShared_verdict (platform : Platform) (config : Config) (message : Nat × Report)
    {s : Shared} (h : s.consistent) :
    handleShared platform config message s =
      match (s.query.verdict platform config message).1 with
      | .error e => (.error e, s.read platform config message)
      | .ok false =>
        (.ok (), { s.read platform config message with
          query := { (s.read platform config message).query with
            state := (s.read platform config message).query.state.tally .httpMalformed 1 } })
      | .ok true =>
        match (s.read platform config message).publish config message.1 message.2 with
        | (.error e, s) => (.error e, s)
        | (.ok (), s) =>
          ((s.query.accept message.1 message.2.transfer).1,
            { s with query := (s.query.accept message.1 message.2.transfer).2 }) := by
  unfold handleShared
  rw [h.reset]
  rfl

/-- The table of an accepted response is published as the response publishes it on its own. -/
theorem Shared.publish_own (config : Config) (h : platform.zeroOnFailure) (garbage : Garbage)
    {streams : Streams} {message : Nat × Report} {s : Shared} (hfit : Fit streams message s)
    (hverdict : (s.query.verdict (platform.withGarbage garbage) config message).1 = .ok true) :
    let r := (s.read (platform.withGarbage garbage) config message).publish config message.1
      message.2
    r.1 = .ok () ∧
      r.2.published = ((ownContents platform config streams message.2.transfer
        (s.query.state.connections message.1)).map fun content =>
          (message.1, content)).reverse ++ s.published ∧
      message.1 ∈ r.2.query.pending ∧ Kept streams s r.2 := by
  intro r
  have haccepted := (respond_verdict platform config message.2.transfer
    (s.query.state.connections message.1) garbage _ _).symm.trans hverdict
  have htable : (s.read (platform.withGarbage garbage) config message).table = _ :=
    respond_table_own h garbage hverdict
  have hindexed := indexed_of_labelUnmapped hfit.label haccepted
  have hresource : ((s.read (platform.withGarbage garbage) config message).query.state.connections
      message.1).resource = (s.query.state.connections message.1).resource :=
    stored_resource (platform.withGarbage garbage) config message s.query
  obtain ⟨hok, hpublished, hpending, hsame, hkeep⟩ := Shared.publish_contents config
    (s.read (platform.withGarbage garbage) config message) message.1 message.2
    (by rw [hresource]; exact hfit.ready) hfit.calls hfit.same
    (by rw [hresource, htable]; exact hindexed)
  rw [hresource, htable, ← ownContents_of_accepted haccepted] at hpublished
  refine ⟨hok, hpublished, ?_, hsame, hkeep⟩
  rw [hpending]
  exact hfit.pending

/-- A message whose response does not end the round publishes what the response publishes on its
own, whatever is left in the shared variables. -/
theorem handleShared_published (config : Config) (h : platform.zeroOnFailure) (garbage : Garbage)
    {streams : Streams} {message : Nat × Report} {s : Shared} (hfit : Fit streams message s) :
    let r := handleShared (platform.withGarbage garbage) config message s
    let connection := s.query.state.connections message.1
    (faulty platform config message.2.transfer connection ∧ (∃ e, r.1 = .error e) ∧
      r.2.published = s.published) ∨
    (¬ faulty platform config message.2.transfer connection ∧ r.1 = .ok () ∧
      r.2.published = ((ownContents platform config streams message.2.transfer
        connection).map fun content => (message.1, content)).reverse ++ s.published ∧
      Kept streams s r.2) := by
  intro r connection
  have hrun : r = _ := handleShared_verdict (platform.withGarbage garbage) config message
    hfit.consistent
  have hsame : (s.query.verdict (platform.withGarbage garbage) config message).1 =
      (respond platform config message.2.transfer connection (fun _ => 0) []).1 :=
    respond_verdict platform config message.2.transfer connection garbage _ _
  have hfault := respond_fault_iff platform config message.2.transfer connection (fun _ => 0) []
  cases hverdict : (s.query.verdict (platform.withGarbage garbage) config message).1 with
  | error e =>
    left
    rw [hverdict] at hrun hsame
    rw [hrun]
    exact ⟨hfault.mp ⟨e, hsame.symm⟩, ⟨e, rfl⟩, rfl⟩
  | ok accepted =>
    right
    rw [hverdict] at hrun hsame
    refine ⟨?_, ?_⟩
    · intro hfaulty
      obtain ⟨e, he⟩ := hfault.mpr hfaulty
      rw [← hsame] at he
      cases he
    cases accepted with
    | false =>
      rw [hrun, ownContents_of_not_accepted (by rw [← hsame]; simp)]
      exact ⟨rfl, rfl, hfit.same, fun _ hready => hready⟩
    | true =>
      obtain ⟨hok, hpublished, hmem, hkept⟩ := Shared.publish_own config h garbage hfit hverdict
      dsimp only at hrun
      cases hp : (s.read (platform.withGarbage garbage) config message).publish config message.1
          message.2 with
      | mk x s' =>
        rw [hp] at hok hpublished hmem hkept hrun
        dsimp only at hok
        subst hok
        rw [hrun]
        refine ⟨accept_of_mem hmem _, hpublished, ?_, ?_⟩
        · dsimp only
          rw [accept_provider]
          exact hkept.same
        · dsimp only
          rw [accept_provider]
          exact hkept.ready

end Psych
