import Mathlib.Data.List.Forall2
import Psych.Model.Sample
import Psych.Timer.ServiceTimes

/-!
# Tables

The handlers of the four tables of the MIB answer each request for a column of a row, one after the
other. A column that is registered has a value, other columns and rows are reported as missing
(`handler_answers`), with one exception: the text of the RSSL servers is gone when it is put into
the answer. Since a session is only accepted with a server, every request for that column of a
session reads freed memory (`psychSessionTable_defined_iff`).
-/

namespace Psych

/-! ## Requests -/

/-- What `snmp_set_var_typed_value` puts into an answer. -/
inductive SnmpValue where
  | counter (value : BitVec 32)
  | integer (value : Int)
  | octetString (value : Text)
deriving DecidableEq

inductive SnmpAnswer where
  | value (value : SnmpValue)
  | noSuchInstance
  | noSuchObject
  /-- A request without table information is logged and left as it is. -/
  | none
deriving DecidableEq

/-- A request for a column of a row, as far as Net-SNMP has found them. -/
structure TableRequest (ρ : Type) where
  row : Option ρ
  colnum : Option Nat

/-- The columns of a table, and those it is registered with. -/
structure SnmpTable (ρ : Type) where
  minColumn : Nat
  maxColumn : Nat
  /-- A branch of the `switch`; reading what is not there is undefined. -/
  column : Nat → Option (ρ → Except Fault SnmpValue)

/-- The body of the loop. -/
def SnmpTable.answer {ρ : Type} (table : SnmpTable ρ) (request : TableRequest ρ) :
    Except Fault SnmpAnswer :=
  match request.row, request.colnum with
  | none, _ => .ok .noSuchInstance
  | some _, none => .ok .none
  | some row, some colnum =>
    match table.column colnum with
    | none => .ok .noSuchObject
    | some value => (value row).map .value

/-- A handler on `MODE_GET`; other modes are logged. -/
def SnmpTable.handler {ρ : Type} (table : SnmpTable ρ) (get : Bool)
    (requests : List (TableRequest ρ)) : Except Fault (List SnmpAnswer) :=
  if get then requests.mapM table.answer else .ok (requests.map fun _ => .none)

/-! ## Plugins -/

/-- `psych_t`, as far as its tables look at it. -/
structure PluginRow where
  config : FullConfig
  stats : Stats
  /-- In microseconds since the Unix epoch. -/
  lastActivity : Int
  /-- `none` is positive or negative infinity. -/
  minTclTime : Option Int
  maxTclTime : Option Int
  totalTclTime : Int
  minRefreshTime : Option Int
  maxRefreshTime : Option Int
  totalRefreshTime : Int
  /-- `PROVIDER_PC_MSGS_SENT` and the last activity of `provider_`, where there is one. -/
  provider : Option (BitVec 32 × Int)

def octetString {ρ : Type} (text : ρ → Text) : Option (ρ → Except Fault SnmpValue) :=
  some fun row => .ok (.octetString (text row))

def counter {ρ : Type} (value : ρ → BitVec 32) : Option (ρ → Except Fault SnmpValue) :=
  some fun row => .ok (.counter (value row))

def psychPluginTable : SnmpTable PluginRow where
  minColumn := 3
  maxColumn := 7
  column
    | 3 => octetString (·.config.key)
    | 4 => octetString (·.config.serviceName)
    | 5 => octetString (·.config.monitorName)
    | 6 => octetString (·.config.eventQueueName)
    | 7 => octetString (·.config.vendorName)
    | _ => none

/-- The seconds of a time, as the bits of a `__time32_t`. -/
def time32Bits (time : Int) : BitVec 32 := BitVec.ofInt 32 (totalSeconds time)

/-- The mean of the times in a total; zero before the first. -/
def meanBits (total : Int) (received : BitVec 32) : BitVec 32 :=
  if 0 < received then BitVec.ofInt 32 ((totalMilliseconds total).tdiv received.toNat) else 0

def psychPluginPerformanceTable : SnmpTable PluginRow where
  minColumn := 3
  maxColumn := 26
  column
    | 3 => counter (·.stats .tclQueryReceived)
    | 4 => counter (·.stats .timerQueryReceived)
    | 5 => counter fun row => time32Bits row.lastActivity
    | 6 => counter fun row => exportTime row.minTclTime
    | 7 => counter fun row => meanBits row.totalTclTime (row.stats .tclQueryReceived)
    | 8 => counter fun row => exportTime row.maxTclTime
    | 9 => counter fun row => exportTime row.minRefreshTime
    | 10 => counter fun row => meanBits row.totalRefreshTime (row.stats .timerQueryReceived)
    | 11 => counter fun row => exportTime row.maxRefreshTime
    | 12 => counter fun row => row.provider.elim 0 Prod.fst
    | 13 => counter fun row => row.provider.elim 0 fun provider => time32Bits provider.2
    | 14 => counter (·.stats .httpRequestSent)
    | 15 => counter (·.stats .http1xxReceived)
    | 16 => counter (·.stats .http2xxReceived)
    | 17 => counter (·.stats .http3xxReceived)
    | 18 => counter (·.stats .http4xxReceived)
    | 19 => counter (·.stats .http5xxReceived)
    | 20 => counter (·.stats .http200Received)
    | 21 => counter (·.stats .http304Received)
    | 22 => counter (·.stats .httpMalformed)
    | 23 => counter (·.stats .httpRetriesExceeded)
    | 24 => counter (·.stats .httpdClockDrift)
    | 25 => counter (·.stats .httpClockDrift)
    | 26 => counter (·.stats .psychClockDrift)
    | _ => none

/-! ## Sessions -/

/-- `session_t`, as far as its tables look at it. -/
structure SessionRow where
  session : Session
  config : SessionConfig
  /-- In microseconds since the Unix epoch. -/
  lastActivity : Int

/-- The servers are written to a stream, and the text that is taken of it is destroyed at the end of
the statement; without a server it is a literal. -/
def rsslServersColumn (row : SessionRow) : Except Fault SnmpValue :=
  if row.config.rsslServers.isEmpty then .ok (.octetString []) else .error .undefined

def psychSessionTable : SnmpTable SessionRow where
  minColumn := 4
  maxColumn := 12
  column
    | 4 => some rsslServersColumn
    | 5 => octetString (·.config.rsslDefaultPort)
    | 6 => octetString (·.config.applicationId)
    | 7 => octetString (·.config.instanceId)
    | 8 => octetString (·.config.userName)
    | 9 => octetString (·.config.position)
    | 10 => octetString (·.config.sessionName)
    | 11 => octetString (·.config.connectionName)
    | 12 => octetString (·.config.publisherName)
    | _ => none

/-- `RespStatus::StreamState`, as the MIB numbers it. -/
def StreamState.number : StreamState → Int
  | .unspecified => 0
  | .open => 1
  | .nonStreaming => 2
  | .closedRecover => 3
  | .closed => 4
  | .redirected => 5

/-- `RespStatus::DataState`, as the MIB numbers it. -/
def DataState.number : DataState → Int
  | .unspecified => 0
  | .ok => 1
  | .suspect => 2

def psychSessionPerformanceTable : SnmpTable SessionRow where
  minColumn := 4
  maxColumn := 26
  column
    | 4 => counter fun row => time32Bits row.lastActivity
    | 5 => counter (·.session.stats .rfaMsgsSent)
    | 6 => counter (·.session.stats .rfaEventsReceived)
    | 7 => counter (·.session.stats .rfaEventsDiscarded)
    | 8 => counter (·.session.stats .ommItemEventsReceived)
    | 9 => counter (·.session.stats .ommItemEventsDiscarded)
    | 10 => counter (·.session.stats .responseMsgsReceived)
    | 11 => counter (·.session.stats .responseMsgsDiscarded)
    | 12 => counter (·.session.stats .mmtLoginResponseReceived)
    | 13 => counter (·.session.stats .mmtLoginResponseDiscarded)
    | 14 => counter (·.session.stats .mmtLoginSuccessReceived)
    | 15 => counter (·.session.stats .mmtLoginSuspectReceived)
    | 16 => counter (·.session.stats .mmtLoginClosedReceived)
    | 17 => counter (·.session.stats .ommCmdErrors)
    | 18 => counter (·.session.stats .mmtLoginValidated)
    | 19 => counter (·.session.stats .mmtLoginMalformed)
    | 20 => counter (·.session.stats .mmtLoginSent)
    | 21 => counter (·.session.stats .mmtDirectoryValidated)
    | 22 => counter (·.session.stats .mmtDirectoryMalformed)
    | 23 => counter (·.session.stats .mmtDirectorySent)
    | 24 => counter (·.session.stats .tokensGenerated)
    | 25 => some fun row => .ok (.integer row.session.streamState.number)
    | 26 => some fun row => .ok (.integer row.session.dataState.number)
    | _ => none

/-! ## Answers -/

/-- What a request is to be answered with. -/
def SnmpTable.Answers {ρ : Type} (table : SnmpTable ρ) (request : TableRequest ρ)
    (answer : SnmpAnswer) : Prop :=
  match request.row, request.colnum with
  | none, _ => answer = .noSuchInstance
  | some _, none => answer = .none
  | some _, some colnum =>
    if table.minColumn ≤ colnum ∧ colnum ≤ table.maxColumn then ∃ value, answer = .value value
    else answer = .noSuchObject

/-- The columns of the `switch` are those that are registered. -/
def SnmpTable.Registered {ρ : Type} (table : SnmpTable ρ) : Prop :=
  ∀ colnum, (table.column colnum).isSome = true ↔
    table.minColumn ≤ colnum ∧ colnum ≤ table.maxColumn

theorem psychPluginTable_registered : psychPluginTable.Registered := by
  intro colnum
  unfold psychPluginTable
  dsimp only
  split <;> grind [octetString]

theorem psychPluginPerformanceTable_registered : psychPluginPerformanceTable.Registered := by
  intro colnum
  unfold psychPluginPerformanceTable
  dsimp only
  split <;> grind [counter]

theorem psychSessionTable_registered : psychSessionTable.Registered := by
  intro colnum
  unfold psychSessionTable
  dsimp only
  split <;> grind [octetString]

theorem psychSessionPerformanceTable_registered : psychSessionPerformanceTable.Registered := by
  intro colnum
  unfold psychSessionPerformanceTable
  dsimp only
  split <;> grind [counter]

variable {ρ : Type} {table : SnmpTable ρ}

theorem SnmpTable.Registered.answers (h : table.Registered) {request : TableRequest ρ}
    {answer : SnmpAnswer} (hanswer : table.answer request = .ok answer) :
    table.Answers request answer := by
  unfold SnmpTable.answer at hanswer
  unfold SnmpTable.Answers
  cases hrow : request.row with
  | none =>
    rw [hrow] at hanswer
    exact (Except.ok.inj hanswer).symm
  | some row =>
    cases hcolnum : request.colnum with
    | none =>
      rw [hrow, hcolnum] at hanswer
      exact (Except.ok.inj hanswer).symm
    | some colnum =>
      rw [hrow, hcolnum] at hanswer
      dsimp only at hanswer ⊢
      cases hcolumn : table.column colnum with
      | none =>
        rw [hcolumn] at hanswer
        rw [if_neg fun hrange => by simpa [hcolumn] using (h colnum).mpr hrange]
        exact (Except.ok.inj hanswer).symm
      | some value =>
        rw [hcolumn] at hanswer
        rw [if_pos ((h colnum).mp (by simp [hcolumn]))]
        dsimp only at hanswer
        cases hv : value row with
        | error e =>
          rw [hv] at hanswer
          cases hanswer
        | ok v =>
          rw [hv] at hanswer
          exact ⟨v, (Except.ok.inj hanswer).symm⟩

/-- One answer for each request, if nothing is read that is not there. -/
theorem SnmpTable.Registered.handler_answers (h : table.Registered)
    {requests : List (TableRequest ρ)} {answers : List SnmpAnswer}
    (hok : table.handler true requests = .ok answers) :
    List.Forall₂ table.Answers requests answers :=
  (Faults.mapM_ok_iff.mp hok).imp fun _ _ => h.answers

/-- A table whose columns all have values. -/
theorem SnmpTable.Registered.handler_total (h : table.Registered)
    (htotal : ∀ colnum value row, table.column colnum = some value → ∃ v, value row = .ok v)
    (requests : List (TableRequest ρ)) :
    ∃ answers, table.handler true requests = .ok answers ∧
      List.Forall₂ table.Answers requests answers := by
  have hanswer : ∀ request ∈ requests, ∃ answer, table.answer request = .ok answer := by
    intro request _
    unfold SnmpTable.answer
    cases request.row with
    | none => exact ⟨_, rfl⟩
    | some row =>
      cases request.colnum with
      | none => exact ⟨_, rfl⟩
      | some colnum =>
        dsimp only
        cases hcolumn : table.column colnum with
        | none => exact ⟨_, rfl⟩
        | some value =>
          obtain ⟨v, hv⟩ := htotal colnum value row hcolumn
          exact ⟨.value v, congrArg (Except.map SnmpAnswer.value) hv⟩
  obtain ⟨answers, hok⟩ := Faults.exists_mapM_ok_iff.mpr hanswer
  exact ⟨answers, hok, h.handler_answers hok⟩

theorem column_total {f : ρ → SnmpValue} {value : ρ → Except Fault SnmpValue}
    (h : (some fun row => .ok (f row)) = some value) (row : ρ) : ∃ v, value row = .ok v :=
  ⟨f row, congrFun (Option.some.inj h).symm row⟩

theorem psychPluginTable_answers (requests : List (TableRequest PluginRow)) :
    ∃ answers, psychPluginTable.handler true requests = .ok answers ∧
      List.Forall₂ psychPluginTable.Answers requests answers := by
  refine psychPluginTable_registered.handler_total ?_ requests
  intro colnum value row hcolumn
  unfold psychPluginTable at hcolumn
  dsimp only at hcolumn
  split at hcolumn <;> first | exact column_total hcolumn row | contradiction

theorem psychPluginPerformanceTable_answers (requests : List (TableRequest PluginRow)) :
    ∃ answers, psychPluginPerformanceTable.handler true requests = .ok answers ∧
      List.Forall₂ psychPluginPerformanceTable.Answers requests answers := by
  refine psychPluginPerformanceTable_registered.handler_total ?_ requests
  intro colnum value row hcolumn
  unfold psychPluginPerformanceTable at hcolumn
  dsimp only at hcolumn
  split at hcolumn <;> first | exact column_total hcolumn row | contradiction

theorem psychSessionPerformanceTable_answers (requests : List (TableRequest SessionRow)) :
    ∃ answers, psychSessionPerformanceTable.handler true requests = .ok answers ∧
      List.Forall₂ psychSessionPerformanceTable.Answers requests answers := by
  refine psychSessionPerformanceTable_registered.handler_total ?_ requests
  intro colnum value row hcolumn
  unfold psychSessionPerformanceTable at hcolumn
  dsimp only at hcolumn
  split at hcolumn <;> first | exact column_total hcolumn row | contradiction

/-! ## The servers of a session -/

theorem psychSessionTable_column {colnum : Nat} (hne : colnum ≠ 4)
    {value : SessionRow → Except Fault SnmpValue}
    (hcolumn : psychSessionTable.column colnum = some value) (row : SessionRow) :
    ∃ v, value row = .ok v := by
  unfold psychSessionTable at hcolumn
  dsimp only at hcolumn
  split at hcolumn <;> first | exact column_total hcolumn row | contradiction

theorem psychSessionTable_answer_iff {request : TableRequest SessionRow}
    (hvalid : ∀ row ∈ request.row, row.config.valid = true) :
    (∃ answer, psychSessionTable.answer request = .ok answer) ↔
      (request.row.isSome = true → request.colnum ≠ some 4) := by
  unfold SnmpTable.answer
  cases hrow : request.row with
  | none => exact iff_of_true ⟨_, rfl⟩ (fun h => by cases h)
  | some row =>
    cases hcolnum : request.colnum with
    | none => exact iff_of_true ⟨_, rfl⟩ (fun _ h => by cases h)
    | some colnum =>
      dsimp only
      by_cases hservers : colnum = 4
      · subst hservers
        have hsome : row.config.rsslServers.isEmpty = false := by
          have hconfig := hvalid row hrow
          unfold SessionConfig.valid at hconfig
          simp only [Bool.and_eq_true, Bool.not_eq_true'] at hconfig
          exact hconfig.1.1.1.2
        have hgone : rsslServersColumn row = .error .undefined := by
          rw [rsslServersColumn, hsome]
          rfl
        refine iff_of_false ?_ (fun h => h rfl rfl)
        rintro ⟨answer, hanswer⟩
        change (rsslServersColumn row).map SnmpAnswer.value = .ok answer at hanswer
        rw [hgone] at hanswer
        cases hanswer
      · refine iff_of_true ?_ (fun _ h => hservers (Option.some.inj h))
        cases hcolumn : psychSessionTable.column colnum with
        | none => exact ⟨_, rfl⟩
        | some value =>
          obtain ⟨v, hv⟩ := psychSessionTable_column hservers hcolumn row
          exact ⟨.value v, congrArg (Except.map SnmpAnswer.value) hv⟩

def sampleRow : SessionRow where
  session := .created 0 true fun _ => 0
  config := sampleSession
  lastActivity := 0

end Psych
