import Psych.Library.Faults
import Psych.Model.Platform

/-!
# RFA sessions

`session_t`: the login state of one session, the events RFA delivers to it, and the
messages it submits. The outcomes of the RFA calls an event leads to come with the event
(`LoginCalls`), so that a theorem about all of them covers every pattern of failures.

`history` is not in the source: it records what the session has done, newest entry first.
-/

namespace Psych

/-! ## Login state -/

/-- `RespStatus::StreamState`. -/
inductive StreamState where
  | unspecified
  | open
  | nonStreaming
  | closedRecover
  | closed
  | redirected
deriving DecidableEq

/-- `RespStatus::DataState`. -/
inductive DataState where
  | unspecified
  | ok
  | suspect
deriving DecidableEq

/-- The performance counters `SESSION_PC_*`. -/
inductive SessionCounter where
  | rfaMsgsSent
  | rfaEventsReceived
  | rfaEventsDiscarded
  | ommItemEventsReceived
  | ommItemEventsDiscarded
  | responseMsgsReceived
  | responseMsgsDiscarded
  | mmtLoginResponseReceived
  | mmtLoginResponseDiscarded
  | mmtLoginSuccessReceived
  | mmtLoginSuspectReceived
  | mmtLoginClosedReceived
  | ommCmdErrors
  | mmtLoginValidated
  | mmtLoginMalformed
  | mmtLoginSent
  | mmtDirectoryValidated
  | mmtDirectoryMalformed
  | mmtDirectorySent
  | tokensGenerated
deriving DecidableEq

/-! ## Messages -/

/-- `rfa::sessionLayer::ItemToken*`; the null pointer is `none`. -/
abbrev Token := Option Nat

/-- The lock `AuthorizationLock (serviceID, OR, peList)` encodes. -/
structure AuthorizationLock where
  serviceId : Int
  peList : List Nat
deriving DecidableEq

/-- The permission data of a message manifest: the lock, and the row of the table whose
local buffer holds it. -/
structure Permission where
  row : Nat
  lock : AuthorizationLock
deriving DecidableEq

/-- The data of a field entry. -/
inductive FieldData where
  | asciiString (s : Text)
  | rmtesString (s : Text)
  | time (hour minute second milliseconds : Int)
  | date (year month day : Int)
  | blank
  /-- A mantissa with exponent -6; `none` where the conversion to `int64_t` has no
  defined value. -/
  | real (mantissa : Option Int)
deriving DecidableEq

/-- A market price refresh, as far as it differs from one message to the next. -/
structure Message where
  /-- The row of the table it was made from; not in the source. -/
  row : Nat
  /-- The name of the item stream. -/
  name : Text
  serviceName : Text
  fields : List (Int × FieldData)
  permission : Option Permission
deriving DecidableEq

/-- What a session has done. -/
inductive SessionObs where
  /-- A login response was processed. -/
  | login (streamState : StreamState) (dataState : DataState)
  /-- A directory response was submitted. -/
  | directory
  /-- An item message was submitted under a token. -/
  | item (message : Message) (token : Token)
deriving DecidableEq

structure Session where
  /-- Unique id per connection. -/
  instanceId : Nat
  /-- Whether `omm_provider_` is set. -/
  ommProvider : Bool := true
  isMuted : Bool := true
  streamState : StreamState := .unspecified
  dataState : DataState := .unspecified
  stats : SessionCounter → BitVec 32 := fun _ => 0
  history : List SessionObs := []

/-- A session before its first event. -/
def Session.created (instanceId : Nat) (ommProvider : Bool)
    (stats : SessionCounter → BitVec 32) : Session :=
  { instanceId := instanceId, ommProvider := ommProvider, stats := stats }

def Session.bump (s : Session) (counter : SessionCounter) : Session :=
  { s with stats := fun c => if c = counter then s.stats c + 1 else s.stats c }

def Session.record (s : Session) (obs : SessionObs) : Session :=
  { s with history := obs :: s.history }

/-! ## Submitting -/

/-- `Submit`; `ok` is whether RFA takes the message or throws. -/
def Session.submit (ok : Bool) (obs : SessionObs) (s : Session) : Except Fault Unit × Session :=
  if !s.ommProvider then (.error .undefined, s)
  else if ok then (.ok (), (s.record obs).bump .rfaMsgsSent)
  else (.error .invalidUsage, s)

/-- `Send`: a muted session drops the message. -/
def Session.send (ok : Bool) (message : Message) (token : Token) (s : Session) :
    Except Fault Unit × Session :=
  if s.isMuted then (.ok (), s) else s.submit ok (.item message token)

/-! ## Item streams -/

/-- `item_stream_t`, with one token for each session. -/
structure ItemStream where
  rfaName : Text
  token : List Token
  /-- Whether a `weak_ptr` to the stream can still be locked. -/
  live : Bool := true
deriving DecidableEq

/-- The item streams and the directory of the provider: names and indices of streams. The directory
is an unordered map, here in the order of its creation. A login goes through it to generate the
tokens, so the order shows in which streams have a new token where a generation throws, and nothing
that is proved says which those are. -/
structure Streams where
  stream : List ItemStream := []
  directory : List (Text × Nat) := []
deriving DecidableEq

def Streams.setToken (streams : Streams) (i instanceId : Nat) (token : Token) : Streams :=
  { streams with
    stream := streams.stream.modify i fun s => { s with token := s.token.set instanceId token } }

/-! ## Login success -/

/-- `validateMsg`. -/
inductive Validation where
  | ok
  | warning
  | throws
deriving DecidableEq

/-- The outcomes of the RFA calls made while a login success is handled. -/
structure LoginCalls where
  /-- Whether the service directory is encoded, or a write iterator throws. -/
  encodeDirectory : Bool := true
  validateMsg : Validation := .ok
  /-- Whether the token of the directory is generated, or `generateItemToken` throws. -/
  directoryToken : Bool := true
  submit : Bool := true
  /-- The tokens generated for the entries of the directory; `none` where
  `generateItemToken` throws. -/
  itemToken : Nat → Option Nat := fun n => some n

/-- `SendDirectoryResponse`. -/
def Session.sendDirectoryResponse (calls : LoginCalls) (s : Session) :
    Except Fault Bool × Session :=
  if !calls.encodeDirectory then (.error .invalidUsage, s)
  else if calls.validateMsg = .throws then (.ok false, s.bump .mmtDirectoryMalformed)
  else
    let s := s.bump .mmtDirectoryValidated
    if !s.ommProvider then (.error .undefined, s)
    else if !calls.directoryToken then (.error .invalidUsage, s)
    else
      match s.submit calls.submit .directory with
      | (.error e, s) => (.error e, s)
      | (.ok (), s) => (.ok true, s.bump .mmtDirectorySent)

/-- The body of the loop of `ResetTokens`, for the `n`th entry of the directory. -/
def resetToken (calls : LoginCalls) (entry : (Text × Nat) × Nat) (s : Session × Streams) :
    Except Fault Unit × (Session × Streams) :=
  match s.2.stream[entry.1.2]? with
  | none => (.ok (), s)
  | some stream =>
    if !stream.live then (.ok (), s)
    else
      match calls.itemToken entry.2 with
      | none => (.error .invalidUsage, s)
      | some token =>
        -- `sp->token[instance_id_]` outside the vector is undefined
        if stream.token.length ≤ s.1.instanceId then (.error .undefined, s)
        else (.ok (), (s.1.bump .tokensGenerated,
          s.2.setToken entry.1.2 s.1.instanceId (some token)))

/-- `ResetTokens`. -/
def resetTokens (calls : LoginCalls) (s : Session × Streams) :
    Except Fault Unit × (Session × Streams) :=
  if !s.1.ommProvider then (.ok (), s)
  else Faults.forEach (resetToken calls) s.2.directory.zipIdx s

/-- `ResetTokens` and the unmuting after it, with the handler of `OnLoginSuccess`. -/
def unmute (calls : LoginCalls) (s : Session × Streams) :
    Except Fault Unit × (Session × Streams) :=
  match resetTokens calls s with
  | (.error .invalidUsage, s) => (.ok (), s)
  | (.error e, s) => (.error e, s)
  | (.ok (), s) => (.ok (), ({ s.1 with isMuted := false }, s.2))

/-- `OnLoginSuccess`: unmutes unless RFA throws; the result of `SendDirectoryResponse` is
not looked at. -/
def onLoginSuccess (calls : LoginCalls) (s : Session × Streams) :
    Except Fault Unit × (Session × Streams) :=
  match (s.1.bump .mmtLoginSuccessReceived).sendDirectoryResponse calls with
  | (.error .invalidUsage, session) => (.ok (), (session, s.2))
  | (.error e, session) => (.error e, (session, s.2))
  | (.ok _, session) => unmute calls (session, s.2)

/-! ## Events -/

/-- The states of a login response are stored before the response is dispatched on. -/
def Session.recordLogin (streamState : StreamState) (dataState : DataState) (s : Session) :
    Session :=
  { s.record (.login streamState dataState) with
    streamState := streamState, dataState := dataState }

def Session.onLoginSuspect (s : Session) : Session :=
  { s.bump .mmtLoginSuspectReceived with isMuted := true }

def Session.onLoginClosed (s : Session) : Session :=
  { s.bump .mmtLoginClosedReceived with isMuted := true }

/-- The events RFA delivers. -/
inductive RfaEvent where
  /-- A response message of the login model. -/
  | loginResponse (streamState : StreamState) (dataState : DataState) (calls : LoginCalls)
  /-- A response message of another model. -/
  | otherResponse
  /-- An item event that is not a response message. -/
  | otherItemEvent
  | ommCmdError
  /-- An event of another type. -/
  | otherEvent

/-- `OnRespMsg` on a login response. -/
def onLoginResponse (streamState : StreamState) (dataState : DataState) (calls : LoginCalls)
    (s : Session × Streams) : Except Fault Unit × (Session × Streams) :=
  let session := (s.1.bump .mmtLoginResponseReceived).recordLogin streamState dataState
  match streamState with
  | .open =>
    match dataState with
    | .ok => onLoginSuccess calls (session, s.2)
    | .suspect => (.ok (), (session.onLoginSuspect, s.2))
    | .unspecified => (.ok (), (session.bump .mmtLoginResponseDiscarded, s.2))
  | .closed => (.ok (), (session.onLoginClosed, s.2))
  | .unspecified | .nonStreaming | .closedRecover | .redirected =>
    (.ok (), (session.bump .mmtLoginResponseDiscarded, s.2))

/-- `processEvent`. -/
def processEvent (event : RfaEvent) (s : Session × Streams) :
    Except Fault Unit × (Session × Streams) :=
  let session := s.1.bump .rfaEventsReceived
  match event with
  | .loginResponse streamState dataState calls =>
    onLoginResponse streamState dataState calls
      ((session.bump .ommItemEventsReceived).bump .responseMsgsReceived, s.2)
  | .otherResponse =>
    (.ok (), (((session.bump .ommItemEventsReceived).bump .responseMsgsReceived).bump
      .responseMsgsDiscarded, s.2))
  | .otherItemEvent =>
    (.ok (), ((session.bump .ommItemEventsReceived).bump .ommItemEventsDiscarded, s.2))
  | .ommCmdError => (.ok (), (session.bump .ommCmdErrors, s.2))
  | .otherEvent => (.ok (), (session.bump .rfaEventsDiscarded, s.2))

end Psych
