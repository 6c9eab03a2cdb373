import Psych.Http.Verdict
import Psych.Http.Request
import Psych.Model.Sample
import Psych.Publish.Refresh
import Mathlib.Data.List.Dedup

/-!
# `httpPsychQuery`

One query requests every connection and publishes the responses it accepts; the
connections it did not accept are requested again in further rounds. What libcurl, RFA and
the clock do in a round is its input (`RoundInput`), so that a theorem about all inputs
covers every mix of outcomes.

libcurl reports a transfer at most once, and only of a handle that was added in the round
(`RoundInput.reported`). An exception in a callback leaves `curl_multi_perform`.

`log` is not in the source: it records what the queries have done, newest entry first.
-/

namespace Psych

/-! ## What a query does -/

/-- The outcomes of the RFA calls made for a table. -/
abbrev RefreshCalls := Nat → RowCalls

inductive Obs where
  /-- A connection was prepared; without an easy handle no request is made. -/
  | request (c : Nat) (request : Option Request)
  /-- libcurl delivered a header line. -/
  | header (c : Nat) (line : Text)
  /-- The response of a transfer was looked at: the connection before, and its file time
  afterwards. -/
  | done (c : Nat) (transfer : Transfer) (connection : Connection) (lastFiletime : Int)
  /-- A table was given to `SendRefresh`. -/
  | refresh (c : Nat) (transfer : Transfer) (resource : Resource) (table : Table)
      (calls : RefreshCalls) (provider : Provider)
  /-- A connection was removed from the pending ones. -/
  | accept (c : Nat) (transfer : Transfer)
  | sleep (milliseconds : Int)
  | retriesExceeded

/-- `psych_t`, as far as queries work on it. -/
structure State where
  /-- The number of connections, which are named `0, 1, ...` in the order of the map. -/
  count : Nat
  connections : Nat → Connection
  provider : Provider
  stats : Stats := fun _ => 0
  /-- `none` is positive infinity. -/
  minRefreshTime : Option Int := none
  /-- `none` is negative infinity. -/
  maxRefreshTime : Option Int := none
  totalRefreshTime : Int := 0
  log : List Obs := []

def State.observe (p : State) (obs : Obs) : State := { p with log := obs :: p.log }

def State.setConnection (p : State) (c : Nat) (connection : Connection) : State :=
  { p with connections := fun i => if i = c then connection else p.connections i }

def State.tally (p : State) (counter : Counter) (n : Nat) : State :=
  { p with stats := p.stats.add counter n }

/-! ## The input of a round -/

/-- A callback of libcurl. -/
inductive Callback where
  | header (c : Nat) (line : Text)
  | data (c : Nat) (chunk : Text)

structure Report where
  transfer : Transfer
  calls : RefreshCalls := fun _ => {}

structure RoundInput where
  /-- Whether `curl_easy_init` yields a handle. -/
  easyInit : Nat → Bool := fun _ => true
  /-- The callbacks made by the first `curl_multi_perform`. -/
  first : List Callback := []
  /-- The callbacks made by the others. -/
  further : List Callback := []
  /-- The order in which the transfers are reported. -/
  order : List Nat := []
  report : Nat → Report
  /-- `universal_time ()` when the retry is decided. -/
  clock : Int := 0

/-- The transfers libcurl reports as done. -/
def RoundInput.reported (input : RoundInput) (pending : List Nat) : List (Nat × Report) :=
  (input.order.dedup.filter fun c => pending.contains c && input.easyInit c).map fun c =>
    (c, input.report c)

/-! ## A round -/

/-- The first part of a round, for one connection. -/
def prepare (platform : Platform) (config : Config) (flags : QueryFlags) (t0 : Int)
    (easyInit : Nat → Bool) (p : State) (c : Nat) : State :=
  let connection := p.connections c
  if easyInit c then
    (p.setConnection c { connection with
      handle := true
      data := []
      capacity := platform.reserve connection.capacity (toSize (atol config.maximumResponseSize))
      requestPtime := some t0
      httpdPtime := none }).observe (.request c (some (makeRequest config flags connection)))
  else (p.setConnection c { connection with handle := false }).observe (.request c none)

/-- One callback. -/
def callback (platform : Platform) (callback : Callback) (p : State) :
    Except Fault Unit × State :=
  match callback with
  | .header c line =>
    match onHttpHeader platform (p.connections c) line with
    | .error e => (.error e, p.observe (.header c line))
    | .ok connection => (.ok (), (p.observe (.header c line)).setConnection c connection)
  | .data c chunk => (.ok (), p.setConnection c (onHttpData (p.connections c) chunk).2)

/-- What a query works on. -/
structure Query where
  state : State
  pending : List Nat
  engineVersion : Text := []

def Query.observe (q : Query) (obs : Obs) : Query := { q with state := q.state.observe obs }

/-- What `OnHttpResponse` leaves after the transfer of a connection. -/
def Query.store (c : Nat) (transfer : Transfer) (r : HttpState) (q : Query) : Query :=
  { q with
    state := { (q.state.setConnection c r.connection).observe
      (.done c transfer (q.state.connections c) r.connection.lastFiletime) with stats := r.stats }
    engineVersion := r.table.engineVersion }

/-- Exceptions of `SendRefresh` are caught. -/
def caught : Except Fault Unit → Except Fault Unit
  | .error .undefined => .error .undefined
  | _ => .ok ()

/-- `SendRefresh` on the table of an accepted response. -/
def Query.publish (config : Config) (c : Nat) (report : Report) (resource : Resource)
    (table : Table) (q : Query) : Except Fault Unit × Query :=
  let r := sendRefresh config resource table report.calls q.state.provider
  (caught r.1, { q with
    state := { q.state.observe
      (.refresh c report.transfer resource table report.calls q.state.provider) with
      provider := r.2.provider } })

/-- The connection is removed from the pending ones. -/
def Query.accept (c : Nat) (transfer : Transfer) (q : Query) : Except Fault Unit × Query :=
  if c ∈ q.pending then
    (.ok (), { q with pending := q.pending.erase c }.observe (.accept c transfer))
  -- `erase (end ())`
  else (.error .undefined, q)

/-- One message of the information queue. -/
def handleMessage (platform : Platform) (config : Config) (message : Nat × Report) (q : Query) :
    Except Fault Unit × Query :=
  let r := respond platform config message.2.transfer (q.state.connections message.1)
    q.state.stats q.engineVersion
  let q := q.store message.1 message.2.transfer r.2
  match r.1 with
  | .error e => (.error e, q)
  | .ok false => (.ok (), { q with state := q.state.tally .httpMalformed 1 })
  | .ok true =>
    match q.publish config message.1 message.2 (q.state.connections message.1).resource
        r.2.table with
    | (.error e, q) => (.error e, q)
    -- ignoring RFA, the request is now considered successful
    | (.ok (), q) => q.accept message.1 message.2.transfer

/-- The transfers of a round. -/
def transfers (platform : Platform) (input : RoundInput) (requests : Nat) (p : State) :
    Except Fault Unit × State :=
  match Faults.forEach (callback platform) input.first p with
  | (.error e, p) => (.error e, p)
  | (.ok (), p) =>
    Faults.forEach (callback platform) input.further (p.tally .httpRequestSent requests)

/-- One round: every pending connection is requested, and the responses are handled. -/
def queryRound (platform : Platform) (config : Config) (flags : QueryFlags) (t0 : Int)
    (input : RoundInput) (q : Query) : Except Fault Unit × Query :=
  let prepared := q.pending.foldl (prepare platform config flags t0 input.easyInit) q.state
  match transfers platform input q.pending.length prepared with
  | (.error e, p) => (.error e, { q with state := p })
  | (.ok (), p) =>
    Faults.forEach (handleMessage platform config) (input.reported q.pending)
      { q with state := p, engineVersion := [] }

/-! ## Retries -/

def retrySleepDefault : Int := 1000

/-- Ten minutes. -/
def retrySleepMax : Int := 600000

def firstSleep (config : Config) : Int :=
  if atol config.retryDelayMs ≠ 0 then atol config.retryDelayMs else retrySleepDefault

/-- The back-off doubles where no delay is configured. -/
def nextSleep (config : Config) (sleep : Int) : Int :=
  if atol config.retryDelayMs = 0 then min (2 * sleep) retrySleepMax else sleep

/-- The retries are not timed out. -/
def inTime (config : Config) (t0 clock : Int) : Bool :=
  config.retryTimeoutMs.isEmpty || (clock - t0).tdiv 1000 < atol config.retryTimeoutMs

def Query.abortTransfer (q : Query) : Query :=
  { q with state := (q.state.tally .httpRetriesExceeded 1).observe .retriesExceeded }

/-- The loop of `httpPsychQuery`, with the retries that are left and the number of the
round. -/
def queryRounds (platform : Platform) (config : Config) (flags : QueryFlags) (t0 : Int)
    (inputs : Nat → RoundInput) : Nat → Int → Nat → Query → Except Fault Unit × Query
  | retries, sleep, n, q =>
    match queryRound platform config flags t0 (inputs n) q with
    | (.error e, q) => (.error e, q)
    | (.ok (), q) =>
      if q.pending.isEmpty then (.ok (), q)
      else
        match retries with
        | 0 => (.ok (), q.abortTransfer)
        | retries + 1 =>
          if inTime config t0 (inputs n).clock then
            queryRounds platform config flags t0 inputs retries (nextSleep config sleep) (n + 1)
              (q.observe (.sleep sleep))
          else (.ok (), q.abortTransfer)

/-! ## The query -/

/-- The handles of all connections are reset. -/
def State.cleanup (p : State) : State :=
  { p with connections := fun c =>
      if c < p.count then { p.connections c with handle := false } else p.connections c }

/-- The refresh times. -/
def State.recordTime (p : State) (td : Int) : State :=
  { p with
    minRefreshTime := some (match p.minRefreshTime with | none => td | some t => min t td)
    maxRefreshTime := some (match p.maxRefreshTime with | none => td | some t => max t td)
    totalRefreshTime := p.totalRefreshTime + td }

/-- The input of a query: the times at its start and end, and its rounds. -/
structure QueryInput where
  t0 : Int
  t1 : Int
  rounds : Nat → RoundInput

/-- `httpPsychQuery`. -/
def httpPsychQuery (platform : Platform) (config : Config) (flags : QueryFlags)
    (input : QueryInput) (p : State) : Except Fault Unit × State :=
  match queryRounds platform config flags input.t0 input.rounds (atol config.retryCount).toNat
      (firstSleep config) 0 { state := p, pending := List.range p.count } with
  | (.error e, q) => (.error e, q.state)
  | (.ok (), q) => (.ok (), q.state.cleanup.recordTime (input.t1 - input.t0))

/-- What one query records. -/
def queryLog (platform : Platform) (config : Config) (flags : QueryFlags) (input : QueryInput)
    (p : State) : List Obs :=
  (httpPsychQuery platform config flags input { p with log := [] }).2.log

/-! ## A small state -/

/-- One connection and one session. -/
def sampleState : State where
  count := 1
  connections _ := { resource := sampleResource, url := [] }
  provider := .create 1 [sampleResource]

end Psych
