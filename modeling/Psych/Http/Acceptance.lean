import Psych.Http.Response

/-!
# What `OnHttpResponse` accepts

The table machine is described by two facts about the lines of the body
(`tableAccepted`): the first line reads as a timestamp line and the second line, where
there is one, contains a tab. Rows never decide.

* `readTimestamp_eq`: the timestamp line is read without `out_of_range`, and is accepted
  exactly when it has the fields of `timestampFields` and both times parse.
* `scanTable_fst`: the machine accepts exactly the bodies of `tableAccepted`.
* `onHttpResponse_cases`: the four ways out of `OnHttpResponse`.
-/

namespace Psych

/-! ## The timestamp line -/

/-- The version and the two time texts of a timestamp line, where its delimiters are all
found. -/
def timestampFields (token : Text) : Option (Text × Text × Text) :=
  if token.length < timestampLine.length then none
  else
    match find token " ".toList prefixLen with
    | none => none
    | some space =>
      match find token "| ".toList space with
      | none => none
      | some pipe =>
        match find token "- ".toList pipe with
        | none => none
        | some hyphen =>
          some ((token.drop prefixLen).take (space - prefixLen),
            (token.drop (pipe + 2)).take dateLen, (token.drop (hyphen + 2)).take dateLen)

/-- A line that reads as a timestamp line when no time is known before. -/
def readsTimestamp (platform : Platform) (token : Text) : Bool :=
  match timestampFields token with
  | none => false
  | some (_, openText, closeText) =>
    (parseTime platform openText none).isSome && (parseTime platform closeText none).isSome

/-- The open and close times of a timestamp line. -/
def lineTimes (platform : Platform) (token : Text) : PTime × PTime :=
  match timestampFields token with
  | none => (none, none)
  | some (_, openText, closeText) =>
    (parseTime platform openText none, parseTime platform closeText none)

theorem lineTimes_of_fields {platform : Platform} {token version openText closeText : Text}
    (h : timestampFields token = some (version, openText, closeText)) :
    lineTimes platform token =
      (parseTime platform openText none, parseTime platform closeText none) := by
  delta lineTimes
  rw [h]

/-- The version of a timestamp line. -/
def lineVersion (token : Text) : Text :=
  match timestampFields token with
  | none => []
  | some (version, _, _) => version

theorem lineVersion_of_fields {token version openText closeText : Text}
    (h : timestampFields token = some (version, openText, closeText)) :
    lineVersion token = version := by
  delta lineVersion
  rw [h]

theorem substr_after_find {token pat : Text} {pos i : Nat} (h : find token pat pos = some i)
    (hpat : pat ≠ []) (len : Nat) :
    substr token (i + pat.length) len = some ((token.drop (i + pat.length)).take len) :=
  substr_of_le (find_end_le h hpat) len

/-- No search or `substr` of the timestamp line throws, and the line decides alone. -/
theorem readTimestamp_eq (platform : Platform) (token : Text) (table : Table)
    (hopen : table.openTime = none) (hclose : table.closeTime = none) :
    ∃ table', readTimestamp platform token table = (.ok (readsTimestamp platform token), table') ∧
      table'.columns = table.columns ∧ table'.rows = table.rows ∧
      (readsTimestamp platform token = true →
        table'.engineVersion = lineVersion token ∧
        (table'.openTime, table'.closeTime) = lineTimes platform token) := by
  unfold readsTimestamp lineVersion lineTimes timestampFields readTimestamp
  split
  · exact ⟨table, rfl, rfl, rfl, fun h => by cases h⟩
  · rename_i hlen
    cases hspace : find token " ".toList prefixLen with
    | none => exact ⟨table, rfl, rfl, rfl, fun h => by cases h⟩
    | some space =>
      have hversion : prefixLen ≤ token.length := by
        have := find_end_le hspace (by decide)
        have := (find_spec hspace).1
        omega
      simp only [substr_of_le hversion]
      cases hpipe : find token "| ".toList space with
      | none => exact ⟨_, rfl, rfl, rfl, fun h => by cases h⟩
      | some pipe =>
        have hopenText := substr_after_find hpipe (by decide) dateLen
        simp only [show ("| ".toList : Text).length = 2 from rfl] at hopenText
        simp only [show "| ".length = 2 from rfl, hopenText, hopen]
        cases hhyphen : find token "- ".toList pipe with
        | none => exact ⟨_, rfl, rfl, rfl, fun h => by cases h⟩
        | some hyphen =>
          have hcloseText := substr_after_find hhyphen (by decide) dateLen
          simp only [show ("- ".toList : Text).length = 2 from rfl] at hcloseText
          simp only [show "- ".length = 2 from rfl, hcloseText, hclose]
          exact ⟨_, rfl, rfl, rfl, fun _ => ⟨rfl, rfl⟩⟩

/-- An accepted timestamp line sets the version and both times. -/
theorem readTimestamp_accept {platform : Platform} {token : Text} {table : Table}
    (hopen : table.openTime = none) (hclose : table.closeTime = none)
    (h : readsTimestamp platform token = true) :
    readTimestamp platform token table =
      (.ok true,
        { table with
          engineVersion := lineVersion token
          openTime := (lineTimes platform token).1
          closeTime := (lineTimes platform token).2 }) := by
  obtain ⟨table', hread, hcolumns, hrows, hfields⟩ :=
    readTimestamp_eq platform token table hopen hclose
  obtain ⟨hversion, htimes⟩ := hfields h
  rw [hread, h, ← hversion, ← htimes, ← hcolumns, ← hrows]

/-! ## The table -/

/-- The lines of a body that `scanTable` accepts from a fresh table. -/
def linesAccepted (platform : Platform) : List Text → Bool
  | [] => true
  | [timestamp] => readsTimestamp platform timestamp
  | timestamp :: header :: _ => readsTimestamp platform timestamp && header.contains '\t'

theorem linesAccepted_timestamp {platform : Platform} {timestamp : Text} {lines : List Text}
    (h : linesAccepted platform (timestamp :: lines) = true) :
    readsTimestamp platform timestamp = true := by
  cases lines with
  | nil => exact h
  | cons header lines =>
    rw [linesAccepted, Bool.and_eq_true] at h
    exact h.1

/-- A body whose table is accepted. -/
def tableAccepted (platform : Platform) (data : Text) : Bool :=
  linesAccepted platform (tokens "\n".toList data)

theorem scanTable_timestamp {platform : Platform} {token : Text} (tokens : List Text)
    {table table' : Table} {ok : Bool} (h : readTimestamp platform token table = (.ok ok, table')) :
    scanTable platform .timestamp (token :: tokens) table =
      if ok then scanTable platform .header tokens table' else (.ok false, table') := by
  rw [scanTable, h]
  cases ok with
  | false => rfl
  | true => exact (if_pos rfl).symm

theorem scanTable_header (platform : Platform) (token : Text) (tokens : List Text)
    (table : Table) :
    scanTable platform .header (token :: tokens) table =
      let table := { table with columns := table.columns ++ splitString token '\t' }
      if table.columns.isEmpty then (.ok false, table)
      else if table.columns.length < 2 then (.ok false, table)
      else scanTable platform .row tokens table := rfl

theorem scanTable_row (platform : Platform) (token : Text) (tokens : List Text) (table : Table) :
    scanTable platform .row (token :: tokens) table =
      if token.head? = some '#' then scanTable platform .fin tokens table
      else scanTable platform .row tokens (readRow platform token table) := rfl

theorem scanTable_fin (platform : Platform) (lines : List Text) (table : Table) :
    scanTable platform .fin lines table = (.ok true, table) := by
  cases lines <;> rfl

/-- Once the column line is read, nothing rejects the table. -/
theorem scanTable_row_fst (platform : Platform) (lines : List Text) (table : Table) :
    (scanTable platform .row lines table).1 = .ok true := by
  induction lines generalizing table with
  | nil => rfl
  | cons token lines ih =>
    rw [scanTable_row]
    split
    · rw [scanTable_fin]
    · exact ih _

theorem scanTable_header_fst (platform : Platform) (lines : List Text) {table : Table}
    (hcolumns : table.columns = []) :
    (scanTable platform .header lines table).1 =
      .ok (match lines with
        | [] => true
        | header :: _ => header.contains '\t') := by
  cases lines with
  | nil => rfl
  | cons header lines =>
    rw [scanTable_header]
    simp only [hcolumns, List.nil_append]
    have hne := splitString_ne_nil header '\t'
    have hlen := length_splitString header '\t'
    have hmem := List.count_pos_iff (a := '\t') (l := header)
    rw [if_neg (by simpa [List.isEmpty_iff] using hne)]
    split
    · rename_i hshort
      have hno : '\t' ∉ header := fun hin => by
        have := hmem.mpr hin
        omega
      simp [hno]
    · rename_i hlong
      have hin : '\t' ∈ header := hmem.mp (by omega)
      rw [scanTable_row_fst]
      simp [hin]

/-- The output parameters `httpPsychQuery` passes: the version of an earlier response and
nothing else. -/
def freshTable (engineVersion : Text) : Table := { engineVersion := engineVersion }

theorem scanTable_fst (platform : Platform) (lines : List Text) (engineVersion : Text) :
    (scanTable platform .timestamp lines (freshTable engineVersion)).1 =
      .ok (linesAccepted platform lines) := by
  cases lines with
  | nil => rfl
  | cons timestamp lines =>
    obtain ⟨table, hread, hcolumns, _⟩ :=
      readTimestamp_eq platform timestamp (freshTable engineVersion) rfl rfl
    rw [scanTable_timestamp lines hread]
    cases hok : readsTimestamp platform timestamp with
    | false => cases lines <;> simp [linesAccepted, hok]
    | true =>
      rw [if_pos rfl, scanTable_header_fst platform lines hcolumns]
      cases lines <;> simp [linesAccepted, hok]

/-! ## The response -/

/-- The response passes every check before its table: it has status 200, its payload is
admissible, and its file time, where known, does not breach the panic threshold. -/
def reachesTable (config : Config) (transfer : Transfer) (connection : Connection) : Prop :=
  transfer.responseCode = 200 ∧
  (∃ contentType, transfer.contentType = some contentType ∧
    admissible config contentType connection.data = true) ∧
  (transfer.filetime = -1 ∨ panics config transfer connection = false)

theorem reachesTable.contentType_ne {config : Config} {transfer : Transfer}
    {connection : Connection} (h : reachesTable config transfer connection) :
    transfer.contentType ≠ none := by
  obtain ⟨_, ⟨contentType, hsome, _⟩, _⟩ := h
  rw [hsome]
  exact Option.some_ne_none contentType

/-- The content type is missing, and is read: by the line that logs the response, or by the
comparison after the check of the status. -/
def readsNull (platform : Platform) (transfer : Transfer) : Prop :=
  transfer.contentType = none ∧ (platform.vlog4 = true ∨ transfer.responseCode = 200)

instance (platform : Platform) (transfer : Transfer) : Decidable (readsNull platform transfer) :=
  inferInstanceAs (Decidable (_ ∧ _))

theorem reachesTable.not_readsNull {config : Config} {transfer : Transfer}
    {connection : Connection} (h : reachesTable config transfer connection) (platform : Platform) :
    ¬ readsNull platform transfer := fun hnull => h.contentType_ne hnull.1

/-- The file time of a connection after a response that reaches the table. -/
def filetimeAfter (transfer : Transfer) (connection : Connection) : Int :=
  if transfer.filetime = -1 then connection.lastFiletime else transfer.filetime

@[simp]
theorem recordHttpdDrift_connection (s : HttpState) :
    s.recordHttpdDrift.connection = s.connection := by
  unfold HttpState.recordHttpdDrift
  split <;> rfl

@[simp]
theorem recordHttpdDrift_table (s : HttpState) : s.recordHttpdDrift.table = s.table := by
  unfold HttpState.recordHttpdDrift
  split <;> rfl

@[simp]
theorem recordPsychDrift_connection (s : HttpState) :
    s.recordPsychDrift.connection = s.connection := by
  unfold HttpState.recordPsychDrift
  split <;> rfl

@[simp]
theorem recordPsychDrift_table (s : HttpState) : s.recordPsychDrift.table = s.table := by
  unfold HttpState.recordPsychDrift
  split <;> rfl

@[simp]
theorem countStatus_connection (s : HttpState) (responseCode : Int) :
    (s.countStatus responseCode).connection = s.connection := by
  unfold HttpState.countStatus
  split_ifs <;> rfl

theorem storeFiletime_reject {config : Config} {transfer : Transfer} {s : HttpState}
    (h : ¬ (transfer.filetime = -1 ∨ panics config transfer s.connection = false)) :
    (storeFiletime config transfer s).1 = false ∧
      (storeFiletime config transfer s).2.connection = s.connection := by
  rw [not_or, Bool.not_eq_false] at h
  have hp : panics config transfer
      (s.set .httpClockDrift (httpOffset transfer s.connection)).connection = true := h.2
  unfold storeFiletime
  simp only [if_neg h.1, hp, if_true]
  exact ⟨trivial, rfl⟩

theorem storeFiletime_accept {config : Config} {transfer : Transfer} {s : HttpState}
    (h : transfer.filetime = -1 ∨ panics config transfer s.connection = false) :
    (storeFiletime config transfer s).1 = true ∧
      (storeFiletime config transfer s).2.connection =
        { s.connection with lastFiletime := filetimeAfter transfer s.connection } ∧
      (storeFiletime config transfer s).2.table = s.table := by
  unfold storeFiletime filetimeAfter
  by_cases hf : transfer.filetime = -1
  · simp [hf]
  · have hp : panics config transfer
        (s.set .httpClockDrift (httpOffset transfer s.connection)).connection = false :=
      h.resolve_left hf
    simp only [if_neg hf, hp, Bool.false_eq_true, if_false]
    exact ⟨trivial, rfl, rfl⟩

/-- The state in which the table of a payload is extracted. -/
def tableState (config : Config) (transfer : Transfer) (s : HttpState) : HttpState :=
  (storeFiletime config transfer s.recordHttpdDrift).2

theorem inspectPayload_reject (platform : Platform) {config : Config} {transfer : Transfer}
    {s : HttpState} (h : ¬ (transfer.filetime = -1 ∨ panics config transfer s.connection = false)) :
    (inspectPayload platform config transfer s).1 = .ok false ∧
      (inspectPayload platform config transfer s).2.connection = s.connection := by
  obtain ⟨hno, hconn⟩ := storeFiletime_reject (s := s.recordHttpdDrift) (by simpa using h)
  unfold inspectPayload
  simp only [hno, Bool.false_eq_true, if_false]
  exact ⟨trivial, by simpa using hconn⟩

theorem inspectPayload_accept (platform : Platform) {config : Config} {transfer : Transfer}
    {s : HttpState} (h : transfer.filetime = -1 ∨ panics config transfer s.connection = false) :
    inspectPayload platform config transfer s =
        extractTable platform transfer (tableState config transfer s) ∧
      (tableState config transfer s).connection =
        { s.connection with lastFiletime := filetimeAfter transfer s.connection } ∧
      (tableState config transfer s).table = s.table := by
  obtain ⟨hgo, hconn, htable⟩ := storeFiletime_accept (s := s.recordHttpdDrift) (by simpa using h)
  unfold inspectPayload
  simp only [hgo, if_true]
  exact ⟨rfl, by simpa [tableState] using hconn, by simpa [tableState] using htable⟩

/-- The state after a response has been counted as a 200. -/
def counted (s : HttpState) : HttpState := (s.bump .http200Received).bump .http2xxReceived

/-- A content type that is there is logged as any other part of the response. -/
theorem onHttpResponse_of_contentType (platform : Platform) (config : Config) {transfer : Transfer}
    (s : HttpState) {contentType : Text} (hct : transfer.contentType = some contentType) :
    onHttpResponse platform config transfer s =
      if transfer.responseCode ≠ 200 then (.ok false, s.countStatus transfer.responseCode)
      else if admissible config contentType s.connection.data then
        inspectPayload platform config transfer (counted s)
      else (.ok false, counted s) := by
  unfold onHttpResponse logsNull
  rw [hct, Option.isNone_some, Bool.and_false]
  rfl

/-- The ways out of `OnHttpResponse`: a null content type that is read is undefined, a response
that does not reach the table is rejected with its connection as it was, and every other
response is decided by its table. -/
theorem onHttpResponse_cases (platform : Platform) (config : Config) (transfer : Transfer)
    (s : HttpState) :
    (readsNull platform transfer ∧
      (onHttpResponse platform config transfer s).1 = .error .undefined ∧
      (onHttpResponse platform config transfer s).2.connection = s.connection) ∨
    (¬ readsNull platform transfer ∧
      ¬ reachesTable config transfer s.connection ∧
      (onHttpResponse platform config transfer s).1 = .ok false ∧
      (onHttpResponse platform config transfer s).2.connection = s.connection) ∨
    (reachesTable config transfer s.connection ∧
      onHttpResponse platform config transfer s =
        extractTable platform transfer (tableState config transfer (counted s)) ∧
      (tableState config transfer (counted s)).connection =
        { s.connection with lastFiletime := filetimeAfter transfer s.connection } ∧
      (tableState config transfer (counted s)).table = s.table) := by
  cases hct : transfer.contentType with
  | none =>
    have hno : ¬ reachesTable config transfer s.connection := fun h => h.contentType_ne hct
    unfold onHttpResponse logsNull
    rw [hct, Option.isNone_none, Bool.and_true]
    by_cases hvlog : platform.vlog4 = true
    · rw [if_pos hvlog]
      exact Or.inl ⟨⟨hct, Or.inl hvlog⟩, rfl, rfl⟩
    · rw [if_neg hvlog]
      by_cases hcode : transfer.responseCode = 200
      · rw [if_neg (not_not_intro hcode)]
        exact Or.inl ⟨⟨hct, Or.inr hcode⟩, rfl, rfl⟩
      · rw [if_pos hcode]
        exact Or.inr (Or.inl ⟨fun h => h.2.elim hvlog hcode, hno, rfl, countStatus_connection s _⟩)
  | some contentType =>
    right
    have hsome : ¬ readsNull platform transfer := by
      rintro ⟨hnone, _⟩
      rw [hct] at hnone
      cases hnone
    rw [onHttpResponse_of_contentType platform config s hct]
    by_cases hcode : transfer.responseCode = 200
    · rw [if_neg (not_not_intro hcode)]
      by_cases had : admissible config contentType s.connection.data = true
      · rw [if_pos had]
        by_cases hgo : transfer.filetime = -1 ∨ panics config transfer s.connection = false
        · right
          exact ⟨⟨hcode, ⟨_, hct, had⟩, hgo⟩, inspectPayload_accept platform (s := counted s) hgo⟩
        · left
          obtain ⟨hno, hconn⟩ := inspectPayload_reject platform (s := counted s) hgo
          exact ⟨hsome, fun hreach => hgo hreach.2.2, hno, hconn⟩
      · left
        rw [if_neg had]
        refine ⟨hsome, ?_, rfl, rfl⟩
        rintro ⟨_, ⟨ct, hct', had'⟩, _⟩
        rw [hct] at hct'
        cases hct'
        exact had had'
    · left
      rw [if_pos hcode]
      exact ⟨hsome, fun h => hcode h.1, rfl, countStatus_connection s _⟩

end Psych
