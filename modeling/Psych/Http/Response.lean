import Psych.Http.Table

/-!
# `OnHttpResponse`

What `httpPsychQuery` does with a finished transfer before it publishes: the checks of
status, content type, size and magic number, the sanity check of the file time, the data
table, and the line that logs the times.
-/

namespace Psych

/-- What libcurl reports of a finished transfer: `data.result` of the message and the
answers of `curl_easy_getinfo`. -/
structure Transfer where
  /-- `CURLcode`; 0 is `CURLE_OK`. -/
  result : Nat := 0
  responseCode : Int
  /-- `CURLINFO_CONTENT_TYPE`; `none` is the null pointer. -/
  contentType : Option Text
  /-- `CURLINFO_FILETIME`; -1 where it is unknown. -/
  filetime : Int := -1
deriving DecidableEq

/-- What `OnHttpResponse` works on. -/
structure HttpState where
  connection : Connection
  stats : Stats
  table : Table

def HttpState.bump (s : HttpState) (counter : Counter) : HttpState :=
  { s with stats := s.stats.bump counter }

def HttpState.set (s : HttpState) (counter : Counter) (value : Int) : HttpState :=
  { s with stats := s.stats.set counter value }

/-! ## Status, content type, size, magic number -/

/-- The counters of a response other than 200. -/
def HttpState.countStatus (s : HttpState) (responseCode : Int) : HttpState :=
  let s :=
    if 100 ≤ responseCode ∧ responseCode ≤ 199 then s.bump .http1xxReceived
    else if 200 ≤ responseCode ∧ responseCode ≤ 299 then s.bump .http2xxReceived
    else if 300 ≤ responseCode ∧ responseCode ≤ 399 then s.bump .http3xxReceived
    else if 400 ≤ responseCode ∧ responseCode ≤ 499 then s.bump .http4xxReceived
    else if 500 ≤ responseCode ∧ responseCode ≤ 599 then s.bump .http5xxReceived
    else s
  if responseCode = 304 then s.bump .http304Received else s

def textPlain : Text := "text/plain".toList

/-- The configured minimum, or the size of the magic number. -/
def minimumResponseSize (config : Config) : Int :=
  if !config.minimumResponseSize.isEmpty then atol config.minimumResponseSize else 4

/-- `FOURCC` of signed characters. -/
def fourcc (a b c d : Char) : BitVec 32 :=
  let byte (c : Char) : BitVec 32 := (BitVec.ofNat 8 c.toNat).signExtend 32
  byte d <<< 24 ||| byte c <<< 16 ||| byte b <<< 8 ||| byte a

def kPsychMagic : BitVec 32 := fourcc '#' ' ' 'M' 'a'

/-- The magic number of a body; past the end of the data comes the terminator of
`c_str ()`, which no magic number contains. -/
def magic (data : Text) : BitVec 32 :=
  let cdata (i : Nat) : Char := data.getD i '\x00'
  fourcc (cdata 0) (cdata 1) (cdata 2) (cdata 3)

/-- The checks of the payload before its file time is looked at. The size comparison is
made in `size_t`. -/
def admissible (config : Config) (contentType data : Text) : Bool :=
  textPlain.isPrefixOf contentType &&
  toSize (minimumResponseSize config) ≤ data.length &&
  magic data == kPsychMagic

/-! ## File time -/

/-- `filetime - request_filetime`. -/
def httpOffset (transfer : Transfer) (connection : Connection) : Int :=
  toLong (transfer.filetime - toUnixEpoch connection.requestPtime)

/-- The clock offset of the file time breaches the panic threshold. -/
def panics (config : Config) (transfer : Transfer) (connection : Connection) : Bool :=
  !config.panicThreshold.isEmpty &&
  atol config.panicThreshold ≤ labs (httpOffset transfer connection)

/-- The file time of an admissible response: whether the response goes on, and the state
with the drift recorded and the file time stored. -/
def storeFiletime (config : Config) (transfer : Transfer) (s : HttpState) : Bool × HttpState :=
  if transfer.filetime = -1 then (true, s)
  else
    let s := s.set .httpClockDrift (httpOffset transfer s.connection)
    if panics config transfer s.connection then (false, s)
    else (true, { s with connection := { s.connection with lastFiletime := transfer.filetime } })

/-! ## Times -/

/-- The time difference to the server, for monitoring only. -/
def HttpState.recordHttpdDrift (s : HttpState) : HttpState :=
  match s.connection.httpdPtime with
  | none => s
  | some t => s.set .httpdClockDrift (secondsBetween (some t) s.connection.requestPtime)

def HttpState.recordPsychDrift (s : HttpState) : HttpState :=
  match s.table.closeTime with
  | none => s
  | some t => s.set .psychClockDrift (secondsBetween (some t) s.connection.requestPtime)

/-- The times the `Timing` line renders. -/
def timingTimes (transfer : Transfer) (s : HttpState) : List PTime :=
  [s.connection.requestPtime, s.connection.httpdPtime, some (transfer.filetime * ticksPerSecond),
    s.table.openTime, s.table.closeTime]

/-- The `Timing` line can be rendered, where it is logged at all. -/
def timingPrints (platform : Platform) (transfer : Transfer) (s : HttpState) : Bool :=
  !(platform.logInfo || platform.vlog4) || (timingTimes transfer s).all platform.prints

/-! ## The response -/

/-- The part of `OnHttpResponse` after the table: the drift of the close time and the
`Timing` line. -/
def finishResponse (platform : Platform) (transfer : Transfer) (s : HttpState) :
    Except Fault Bool × HttpState :=
  let s := s.recordPsychDrift
  if timingPrints platform transfer s then (.ok true, s) else (.error .exception, s)

/-- The part of `OnHttpResponse` that extracts the data table from the payload. -/
def extractTable (platform : Platform) (transfer : Transfer) (s : HttpState) :
    Except Fault Bool × HttpState :=
  match scanTable platform .timestamp (tokens "\n".toList s.connection.data) s.table with
  | (.error e, table) => (.error e, { s with table := table })
  | (.ok false, table) => (.ok false, { s with table := table })
  | (.ok true, table) => finishResponse platform transfer { s with table := table }

/-- The part of `OnHttpResponse` after the checks of the payload. -/
def inspectPayload (platform : Platform) (config : Config) (transfer : Transfer) (s : HttpState) :
    Except Fault Bool × HttpState :=
  let stored := storeFiletime config transfer s.recordHttpdDrift
  if stored.1 then extractTable platform transfer stored.2 else (.ok false, stored.2)

/-- `VLOG (4)` streams the content type of the response, and it is a null pointer. -/
def logsNull (platform : Platform) (transfer : Transfer) : Bool :=
  platform.vlog4 && transfer.contentType.isNone

/-- `OnHttpResponse`: whether the response is accepted. -/
def onHttpResponse (platform : Platform) (config : Config) (transfer : Transfer) (s : HttpState) :
    Except Fault Bool × HttpState :=
  if logsNull platform transfer then (.error .undefined, s)
  else if transfer.responseCode ≠ 200 then (.ok false, s.countStatus transfer.responseCode)
  else
    let s := (s.bump .http200Received).bump .http2xxReceived
    match transfer.contentType with
    -- `strncmp` on a null pointer
    | none => (.error .undefined, s)
    | some contentType =>
      if admissible config contentType s.connection.data then
        inspectPayload platform config transfer s
      else (.ok false, s)

end Psych
