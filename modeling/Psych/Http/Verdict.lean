import Psych.Http.Acceptance

/-!
# The verdict on a response

The result of `OnHttpResponse` depends on the transfer and the connection alone
(`respond_cases`): neither the counters nor the version of an earlier response matter. The
`Timing` line is rendered after the table is accepted, so a time that Boost cannot render
turns an accepted response into an exception (`rendered`).
-/

namespace Psych

/-! ## Times of a body -/

theorem readRow_times (platform : Platform) (line : Text) (table : Table) :
    (readRow platform line table).openTime = table.openTime ∧
      (readRow platform line table).closeTime = table.closeTime := by
  unfold readRow
  dsimp only
  split
  · exact ⟨rfl, rfl⟩
  · split <;> exact ⟨rfl, rfl⟩

theorem scanTable_row_times (platform : Platform) (lines : List Text) (table : Table) :
    (scanTable platform .row lines table).2.openTime = table.openTime ∧
      (scanTable platform .row lines table).2.closeTime = table.closeTime := by
  induction lines generalizing table with
  | nil => exact ⟨rfl, rfl⟩
  | cons line lines ih =>
    rw [scanTable_row]
    split
    · rw [scanTable_fin]
      exact ⟨rfl, rfl⟩
    · obtain ⟨hopen, hclose⟩ := readRow_times platform line table
      rw [(ih _).1, (ih _).2]
      exact ⟨hopen, hclose⟩

theorem scanTable_header_times (platform : Platform) (lines : List Text) (table : Table) :
    (scanTable platform .header lines table).2.openTime = table.openTime ∧
      (scanTable platform .header lines table).2.closeTime = table.closeTime := by
  cases lines with
  | nil => exact ⟨rfl, rfl⟩
  | cons header lines =>
    rw [scanTable_header]
    dsimp only
    split
    · exact ⟨rfl, rfl⟩
    · split
      · exact ⟨rfl, rfl⟩
      · exact scanTable_row_times platform lines _

/-- The open and close times of a body. -/
def bodyTimes (platform : Platform) (data : Text) : PTime × PTime :=
  match tokens "\n".toList data with
  | [] => (none, none)
  | timestamp :: _ => lineTimes platform timestamp

theorem scanTable_times (platform : Platform) (data engineVersion : Text)
    (h : tableAccepted platform data = true) :
    ((scanTable platform .timestamp (tokens "\n".toList data) (freshTable engineVersion)).2.openTime,
      (scanTable platform .timestamp (tokens "\n".toList data)
        (freshTable engineVersion)).2.closeTime) = bodyTimes platform data := by
  unfold tableAccepted at h
  unfold bodyTimes
  cases hlines : tokens "\n".toList data with
  | nil => rfl
  | cons timestamp lines =>
    rw [hlines] at h
    rw [scanTable_timestamp lines (readTimestamp_accept rfl rfl (linesAccepted_timestamp h)),
      if_pos rfl, (scanTable_header_times platform lines _).1,
      (scanTable_header_times platform lines _).2]

/-- The `Timing` line of an accepted body can be rendered, where it is logged. -/
def rendered (platform : Platform) (transfer : Transfer) (connection : Connection) : Bool :=
  !(platform.logInfo || platform.vlog4) ||
    [connection.requestPtime, connection.httpdPtime, some (transfer.filetime * ticksPerSecond),
      (bodyTimes platform connection.data).1, (bodyTimes platform connection.data).2].all
        platform.prints

/-- The result of `OnHttpResponse` for the transfer of a connection, called as
`httpPsychQuery` calls it. -/
def respond (platform : Platform) (config : Config) (transfer : Transfer)
    (connection : Connection) (stats : Stats) (engineVersion : Text) :
    Except Fault Bool × HttpState :=
  onHttpResponse platform config transfer
    { connection := connection, stats := stats, table := freshTable engineVersion }

/-- The table the lines of a body scan to. -/
def scannedTable (platform : Platform) (data engineVersion : Text) : Table :=
  (scanTable platform .timestamp (tokens "\n".toList data) (freshTable engineVersion)).2

theorem extractTable_verdict (platform : Platform) (transfer : Transfer) {s : HttpState}
    {engineVersion : Text} (htable : s.table = freshTable engineVersion) :
    (extractTable platform transfer s).1 =
        (if tableAccepted platform s.connection.data then
          if rendered platform transfer s.connection then .ok true else .error .exception
        else .ok false) ∧
      (extractTable platform transfer s).2.connection = s.connection ∧
      (extractTable platform transfer s).2.table =
        scannedTable platform s.connection.data engineVersion := by
  have hfst := scanTable_fst platform (tokens "\n".toList s.connection.data) engineVersion
  have htimes := scanTable_times platform s.connection.data engineVersion
  unfold extractTable finishResponse scannedTable tableAccepted at *
  rw [htable]
  cases hscan : scanTable platform .timestamp (tokens "\n".toList s.connection.data)
      (freshTable engineVersion) with
  | mk r table =>
    rw [hscan] at hfst htimes
    dsimp only at hfst htimes
    subst hfst
    cases haccepted : linesAccepted platform (tokens "\n".toList s.connection.data) with
    | false => exact ⟨rfl, rfl, rfl⟩
    | true =>
      obtain ⟨hopen, hclose⟩ := Prod.mk.inj (htimes haccepted)
      have hrendered : timingPrints platform transfer
          ({ s with table := table } : HttpState).recordPsychDrift =
            rendered platform transfer s.connection := by
        simp only [timingPrints, timingTimes, rendered, recordPsychDrift_connection,
          recordPsychDrift_table, hopen, hclose, bodyTimes]
      dsimp only
      rw [hrendered, if_pos rfl]
      cases rendered platform transfer s.connection <;> simp

/-- The result of `OnHttpResponse`, by the transfer and the connection. -/
theorem respond_cases (platform : Platform) (config : Config) (transfer : Transfer)
    (connection : Connection) (stats : Stats) (engineVersion : Text) :
    (readsNull platform transfer ∧
      (respond platform config transfer connection stats engineVersion).1 = .error .undefined ∧
      (respond platform config transfer connection stats engineVersion).2.connection =
        connection) ∨
    (¬ readsNull platform transfer ∧
      ¬ reachesTable config transfer connection ∧
      (respond platform config transfer connection stats engineVersion).1 = .ok false ∧
      (respond platform config transfer connection stats engineVersion).2.connection =
        connection) ∨
    (reachesTable config transfer connection ∧
      (respond platform config transfer connection stats engineVersion).1 =
        (if tableAccepted platform connection.data then
          if rendered platform transfer connection then .ok true else .error .exception
        else .ok false) ∧
      (respond platform config transfer connection stats engineVersion).2.connection =
        { connection with lastFiletime := filetimeAfter transfer connection } ∧
      (respond platform config transfer connection stats engineVersion).2.table =
        scannedTable platform connection.data engineVersion) := by
  rcases onHttpResponse_cases platform config transfer
      { connection := connection, stats := stats, table := freshTable engineVersion } with
    h | h | ⟨hreach, heq, hconn, htable⟩
  · exact Or.inl h
  · exact Or.inr (Or.inl h)
  · obtain ⟨hfst, hconn', htable'⟩ := extractTable_verdict platform transfer htable
    unfold respond
    rw [heq]
    rw [hconn] at hfst hconn' htable'
    exact Or.inr (Or.inr ⟨hreach, hfst, hconn', htable'⟩)

theorem respond_of_reaches {config : Config} {transfer : Transfer} {connection : Connection}
    (h : reachesTable config transfer connection) (platform : Platform) (stats : Stats)
    (engineVersion : Text) :
    (respond platform config transfer connection stats engineVersion).1 =
        (if tableAccepted platform connection.data then
          if rendered platform transfer connection then .ok true else .error .exception
        else .ok false) ∧
      (respond platform config transfer connection stats engineVersion).2.connection =
        { connection with lastFiletime := filetimeAfter transfer connection } ∧
      (respond platform config transfer connection stats engineVersion).2.table =
        scannedTable platform connection.data engineVersion := by
  rcases respond_cases platform config transfer connection stats engineVersion with
    ⟨hnull, _⟩ | ⟨_, hno, _⟩ | ⟨_, hresult⟩
  · exact absurd hnull (h.not_readsNull platform)
  · exact absurd h hno
  · exact hresult

theorem respond_of_not_reaches {config : Config} {transfer : Transfer} {connection : Connection}
    (h : ¬ reachesTable config transfer connection) (platform : Platform) (stats : Stats)
    (engineVersion : Text) :
    (respond platform config transfer connection stats engineVersion).1 =
        (if readsNull platform transfer then .error .undefined else .ok false) ∧
      (respond platform config transfer connection stats engineVersion).2.connection =
        connection := by
  rcases respond_cases platform config transfer connection stats engineVersion with
    ⟨hnull, hundefined, hconn⟩ | ⟨hno, _, hfalse, hconn⟩ | ⟨hreach, _⟩
  · rw [if_pos hnull]
    exact ⟨hundefined, hconn⟩
  · rw [if_neg hno]
    exact ⟨hfalse, hconn⟩
  · exact absurd hreach h

/-- The response is accepted. -/
def accepts (platform : Platform) (config : Config) (transfer : Transfer)
    (connection : Connection) : Prop :=
  reachesTable config transfer connection ∧ tableAccepted platform connection.data = true ∧
    rendered platform transfer connection = true

theorem respond_accepts_iff (platform : Platform) (config : Config) (transfer : Transfer)
    (connection : Connection) (stats : Stats) (engineVersion : Text) :
    (respond platform config transfer connection stats engineVersion).1 = .ok true ↔
      accepts platform config transfer connection := by
  unfold accepts
  by_cases hreach : reachesTable config transfer connection
  · rw [(respond_of_reaches hreach platform stats engineVersion).1]
    cases tableAccepted platform connection.data <;>
      cases rendered platform transfer connection <;> simp [hreach]
  · rw [(respond_of_not_reaches hreach platform stats engineVersion).1]
    refine iff_of_false ?_ fun h => hreach h.1
    split <;> simp

/-- The table of an accepted response. -/
theorem respond_table {platform : Platform} {config : Config} {transfer : Transfer}
    {connection : Connection} {stats : Stats} {engineVersion : Text}
    (h : (respond platform config transfer connection stats engineVersion).1 = .ok true) :
    (respond platform config transfer connection stats engineVersion).2.table =
        scannedTable platform connection.data engineVersion ∧
      tableAccepted platform connection.data = true := by
  have haccepts := (respond_accepts_iff platform config transfer connection stats engineVersion).mp h
  exact ⟨(respond_of_reaches haccepts.1 platform stats engineVersion).2.2, haccepts.2.1⟩

end Psych
