import Psych.Model.Config
import Psych.Model.Platform
import Psych.Text.Scanf

/-!
# Connections and the callbacks of a transfer

`connection_t`, the performance counters, and the two functions libcurl calls while it
transfers: `on_http_header` with each header line and `on_http_data` with each chunk of
the body.
-/

namespace Psych

/-! ## Performance counters -/

/-- The performance counters `PSYCH_PC_*`. -/
inductive Counter where
  | tclQueryReceived
  | timerQueryReceived
  | httpRequestSent
  | http1xxReceived
  | http2xxReceived
  | http3xxReceived
  | http4xxReceived
  | http5xxReceived
  | http200Received
  | http304Received
  | httpMalformed
  | httpRetriesExceeded
  | httpdClockDrift
  | httpClockDrift
  | psychClockDrift
deriving DecidableEq

/-- `cumulative_stats_`. -/
abbrev Stats := Counter → BitVec 32

def Stats.add (stats : Stats) (counter : Counter) (n : Nat) : Stats :=
  fun c => if c = counter then stats c + BitVec.ofNat 32 n else stats c

def Stats.bump (stats : Stats) (counter : Counter) : Stats := stats.add counter 1

def Stats.set (stats : Stats) (counter : Counter) (value : Int) : Stats :=
  fun c => if c = counter then BitVec.ofInt 32 value else stats c

/-! ## Connections -/

structure Connection where
  resource : Resource
  url : Text
  /-- Whether an easy handle is held. -/
  handle : Bool := false
  data : Text := []
  /-- `data.capacity ()`. -/
  capacity : Nat := 0
  requestPtime : PTime := none
  httpdPtime : PTime := none
  lastFiletime : Int := 0
deriving DecidableEq

/-! ## Headers -/

/-- The longest header line that is taken for a date. -/
def dateLine : Text := "Date: ddd, dd MMM yyyy HH:mm:ss GMT\r\n".toList

/-- `"Date: %s %hu %s %hu %hu:%hu:%hu"`. -/
def dateFormat : List Directive :=
  [.lit 'D', .lit 'a', .lit 't', .lit 'e', .lit ':', .space, .string, .space, .hu, .space,
    .string, .space, .hu, .space, .hu, .lit ':', .hu, .lit ':', .hu]

def months : List Text :=
  ["Jan", "Feb", "Mar", "Apr", "May", "Jun", "Jul", "Aug", "Sep", "Oct", "Nov", "Dec"].map
    String.toList

/-- `tm_mon`: 0 for a name that is not a month, the value `memset` left. -/
def monthIndex (name : Text) : Nat :=
  if name ∈ months then months.idxOf name else 0

/-- `ddd` and `MMM` have 26 characters, the terminator included. -/
def overflows : Stored → Bool
  | .string s => decide (26 < s.length + 1)
  | .hu _ => false

/-- What `sscanf` stored is a date and a time, or not. -/
def readDate : List Stored → Option (Nat × Nat × Nat × Int)
  | [.string _, .hu mday, .string mmm, .hu year, .hu hour, .hu min, .hu sec] =>
    some (year, 1 + monthIndex mmm, mday, hour * 3600 + min * 60 + sec)
  | _ => none

/-- `on_http_header` on one header line. -/
def onHttpHeader (platform : Platform) (connection : Connection) (line : Text) :
    Except Fault Connection :=
  let ptr := cStr line
  if "Date:".toList.isPrefixOf ptr && ptr.length ≤ dateLine.length then
    let stored := sscanf dateFormat ptr
    if stored.any overflows then .error .undefined
    else
      match readDate stored with
      | none => .ok connection
      | some (year, month, day, seconds) =>
        match platform.date year month day with
        -- the constructor of the date throws
        | none => .error .exception
        | some d =>
          .ok { connection with
            httpdPtime := some (d * ticksPerDay + seconds * ticksPerSecond) }
  else .ok connection

/-- A header line that `on_http_header` returns from: no date, or a date of the calendar. -/
def headerFine (platform : Platform) (line : Text) : Bool :=
  let ptr := cStr line
  if "Date:".toList.isPrefixOf ptr && ptr.length ≤ dateLine.length then
    let stored := sscanf dateFormat ptr
    !stored.any overflows &&
      match readDate stored with
      | none => true
      | some (year, month, day, _) => (platform.date year month day).isSome
  else true

/-! ## Body -/

/-- `on_http_data` on one chunk: the number of bytes it reports as taken, and the
connection. -/
def onHttpData (connection : Connection) (chunk : Text) : Nat × Connection :=
  if connection.data.length + chunk.length > connection.capacity then
    -- libcurl aborts a transfer whose chunk was not taken
    (0, connection)
  else (chunk.length, { connection with data := connection.data ++ chunk })

theorem onHttpData_lastFiletime (connection : Connection) (chunk : Text) :
    (onHttpData connection chunk).2.lastFiletime = connection.lastFiletime := by
  unfold onHttpData
  split <;> rfl

/-- `on_http_header` returns exactly for a fine line, and sets the time of the server alone. -/
theorem onHttpHeader_cases (platform : Platform) (connection : Connection) (line : Text) :
    (headerFine platform line = true ∧ ∃ httpd,
      onHttpHeader platform connection line = .ok { connection with httpdPtime := httpd }) ∨
    (headerFine platform line = false ∧ ∃ e, e ≠ .invalidUsage ∧
      onHttpHeader platform connection line = .error e) := by
  unfold headerFine onHttpHeader
  dsimp only
  split
  · cases hover : (sscanf dateFormat (cStr line)).any overflows with
    | true => exact Or.inr ⟨rfl, .undefined, by decide, rfl⟩
    | false =>
      cases hdate : readDate (sscanf dateFormat (cStr line)) with
      | none => exact Or.inl ⟨rfl, connection.httpdPtime, rfl⟩
      | some date =>
        obtain ⟨year, month, day, seconds⟩ := date
        dsimp only
        cases hd : platform.date year month day with
        | none => exact Or.inr ⟨rfl, .exception, by decide, rfl⟩
        | some d => exact Or.inl ⟨rfl, _, rfl⟩
  · exact Or.inl ⟨rfl, connection.httpdPtime, rfl⟩

end Psych
