import Psych.Library.Lifetimes
import Psych.Library.Triples
import Psych.Model.Config

/-!
# Start-up and shutdown of RFA

`Init` acquires the RFA resources one after another, and may leave at each call: with false, or
with an exception that it turns into false. `Clear` and the destructors release what is there. A
resource has one pointer or handle that owns it. The objects `rfa_` and `event_queue_` have many
owners, and are destroyed with the last one.

The answers of RFA, and the failed allocations, are parameters. A `shared_ptr` that is set with a
deleter calls it also where the pointer is null, which `unique_ptr` does not.
-/

namespace Psych.Startup

open Faults Lifetimes

/-! ## RFA -/

/-- What is acquired from RFA; the registry is read into a staging database of its own. The `i`
are the instance ids of the sessions. -/
inductive RfaResource where
  | context
  | staging
  | registryStaging
  | configDatabase
  | eventQueue
  | logger
  | monitor
  | loggerClient
  | session (i : Nat)
  | ommProvider (i : Nat)
  | errorClient (i : Nat)
  | loginClient (i : Nat)
deriving DecidableEq

/-- The event queue that a client registration delivers to, the provider or the monitor that it
was made with, and what an object was created from. -/
inductive Needs : RfaResource → RfaResource → Prop
  | context {r : RfaResource} (h : r ≠ .context) : Needs r .context
  | monitor : Needs .monitor .logger
  | loggerClient : Needs .loggerClient .monitor
  | loggerEvents : Needs .loggerClient .eventQueue
  | ommProvider (i : Nat) : Needs (.ommProvider i) (.session i)
  | errorClient (i : Nat) : Needs (.errorClient i) (.ommProvider i)
  | errorEvents (i : Nat) : Needs (.errorClient i) .eventQueue
  | loginClient (i : Nat) : Needs (.loginClient i) (.ommProvider i)
  | loginEvents (i : Nat) : Needs (.loginClient i) .eventQueue

/-- The calls of the start-up that may fail. A `new` stands for the object with its control
block, `streams` for what sets up the published instruments, and `remainder` for what follows
the RFA part. -/
inductive RfaCall where
  | newRfa
  | createStaging
  | windowsLogger
  | fileLogger
  | connectionList (i : Nat)
  | connectionType (i : Nat)
  | serverList (i : Nat)
  | rsslPort (i : Nat)
  | acquireConfig
  | merge
  | createRegistryStaging
  | load
  | mergeRegistry
  | createEventQueue
  | newQueueBlock
  | newLog
  | acquireLogger
  | createMonitor
  | registerLoggerClient
  | newProvider
  | newSession (i : Nat)
  | acquireSession (i : Nat)
  | verifyVersion
  | createOMMProvider (i : Nat)
  | registerErrorClient (i : Nat)
  | loginRequest (i : Nat)
  | registerLoginClient (i : Nat)
  | metaInfo (i : Nat)
  | streams
  | newEventPump
  | newEventThread
  | remainder
deriving DecidableEq

/-- What a call returns: an object, a handle or true; a null pointer or false; or it throws. -/
inductive Answer where
  | given
  | refused
  | thrown
deriving DecidableEq

/-- The build options of `psych_t`. -/
inductive Build where
  | application
  | plugin
deriving DecidableEq

/-- What the start-up and the shutdown depend on. -/
structure Environment where
  answer : RfaCall → Answer
  /-- The main loop has ended, and the console handler that ended it still holds the event queue
  when `Clear` comes to it. -/
  overtaken : Bool

/-! ## The state -/

/-- How a function ends that does not return. -/
inductive Stop where
  | thrown
  /-- A call through a null pointer. -/
  | crashed
  /-- An `assert` fails. -/
  | asserted
deriving DecidableEq

/-- The objects of an instance that own RFA resources. -/
structure Objects where
  /-- Whether the pointer or handle that owns the resource is not null. -/
  pointers : RfaResource → Bool := fun _ => false
  /-- `rfa_` and `event_queue_` of the instance are not empty. -/
  rfa : Bool := false
  eventQueue : Bool := false
  /-- The use counts of the control blocks; zero where there is none. -/
  rfaCount : Nat := 0
  queueCount : Nat := 0
  logCount : Nat := 0
  providerCount : Nat := 0
  /-- The instance ids of the elements of `sessions_`. -/
  sessions : List Nat := []
  eventPump : Bool := false
  /-- What was acquired and released, newest first; not in the source. -/
  acts : List (Act RfaResource) := []

abbrev Stage := Step Stop Objects

def Objects.point (s : Objects) (r : RfaResource) (b : Bool) : RfaResource → Bool :=
  fun q => if q = r then b else s.pointers q

def Objects.acquired (s : Objects) (r : RfaResource) : Objects :=
  { s with pointers := s.point r true, acts := .acquire r :: s.acts }

def Objects.released (s : Objects) (r : RfaResource) : Objects :=
  { s with pointers := s.point r false, acts := .release r :: s.acts }

def acquire (r : RfaResource) : Stage Unit := Step.modify (·.acquired r)

def release (r : RfaResource) : Stage Unit := Step.modify (·.released r)

/-- `p.reset()` of a `unique_ptr`. -/
def reset (r : RfaResource) : Stage Unit := do
  if ← Step.gets (·.pointers r) then release r

/-- `p->` -/
def deref (r : RfaResource) : Stage Unit := do
  if ← Step.gets (·.pointers r) then return ()
  Step.fail .crashed

def assert (p : Objects → Bool) : Stage Unit := do
  if ← Step.gets p then return ()
  Step.fail .asserted

/-- The destructors that run where an exception leaves a scope. -/
def unwinding {α : Type} (x : Stage α) (exit : Stage Unit) : Stage α :=
  x.handle fun e => if e = .thrown then do exit; Step.fail .thrown else Step.fail e

/-- `try { x } catch (..) { return false; }`. -/
def catching (x : Stage Bool) : Stage Bool :=
  x.handle fun e => if e = .thrown then return false else Step.fail e

/-- The result of a call is not looked at. -/
def ignore (x : Stage Bool) : Stage Unit := do
  let _ ← x

/-! ## Shared objects -/

/-- `rfa::common::EventQueue::destroy`, the deleter of `event_queue_`. -/
def destroyQueue : Stage Unit := do
  deref .eventQueue
  release .eventQueue

/-- An owner of the event queue goes. -/
def dropQueue : Stage Unit := do
  let useCount ← Step.gets (·.queueCount)
  Step.modify fun s => { s with queueCount := useCount - 1 }
  if useCount = 1 then destroyQueue

/-- `rfa_t::~rfa_t`. -/
def destroyRfa : Stage Unit := do
  reset .configDatabase
  release .context

def dropRfa : Stage Unit := do
  let useCount ← Step.gets (·.rfaCount)
  Step.modify fun s => { s with rfaCount := useCount - 1 }
  if useCount = 1 then destroyRfa

/-! ## Destruction -/

/-- A registration with the monitor or the provider `source` is taken back. -/
def unregisterClient (source client : RfaResource) : Stage Unit := do
  if ← Step.gets (·.pointers client) then
    deref source
    release client

/-- `LogEventProvider::Unregister`. -/
def unregister : Stage Unit := do
  unregisterClient .monitor .loggerClient
  reset .monitor
  reset .logger

/-- `LogEventProvider::~LogEventProvider`. -/
def destroyLog : Stage Unit := do
  unregister
  dropQueue

/-- `session_t::~session_t`. -/
def destroySession (i : Nat) : Stage Unit := do
  unregisterClient (.ommProvider i) (.loginClient i)
  unregisterClient (.ommProvider i) (.errorClient i)
  reset (.ommProvider i)
  reset (.session i)
  Step.modify fun s => { s with sessions := s.sessions.tail }
  dropQueue
  dropRfa

/-- `provider_t::~provider_t`. -/
def destroyProvider : Stage Unit := do
  let sessions ← Step.gets (·.sessions)
  forEach destroySession sessions
  dropRfa

def resetProvider : Stage Unit := do
  let useCount ← Step.gets (·.providerCount)
  Step.modify fun s => { s with providerCount := useCount - 1 }
  if useCount = 1 then destroyProvider

def resetLog : Stage Unit := do
  let useCount ← Step.gets (·.logCount)
  Step.modify fun s => { s with logCount := useCount - 1 }
  if useCount = 1 then destroyLog

def resetEventPump : Stage Unit := do
  if ← Step.gets (·.eventPump) then
    Step.modify fun s => { s with eventPump := false }
    dropQueue

def resetEventQueue : Stage Unit := do
  if ← Step.gets (·.eventQueue) then
    Step.modify fun s => { s with eventQueue := false }
    dropQueue

def resetRfa : Stage Unit := do
  if ← Step.gets (·.rfa) then
    Step.modify fun s => { s with rfa := false }
    dropRfa

/-- The part of `Clear` that releases what uses the event queue. -/
def clearUsers : Stage Unit := do
  resetEventPump
  assert fun s => s.providerCount ≤ 1
  resetProvider
  assert fun s => s.logCount ≤ 1
  resetLog

/-- `psych_t::Clear`. -/
def clear : Stage Unit := do
  clearUsers
  assert fun s => !s.eventQueue || s.queueCount ≤ 1
  resetEventQueue
  assert fun s => !s.rfa || s.rfaCount ≤ 1
  resetRfa

/-! ## Start-up -/

section

variable (env : Environment)

/-- The answer of a call. -/
def Environment.ask (c : RfaCall) : Stage Bool :=
  match env.answer c with
  | .given => return true
  | .refused => return false
  | .thrown => Step.fail .thrown

/-- The resource a call acquires is stored in its pointer or handle, which was null. -/
def Environment.obtain (c : RfaCall) (r : RfaResource) : Stage Bool := do
  if ← env.ask c then
    acquire r
    return true
  return false

/-- The calls that set a value in the staging database; what they return is not looked at. -/
def settings (config : FullConfig) : List RfaCall :=
  [.windowsLogger, .fileLogger] ++ config.sessions.zipIdx.flatMap fun (session, i) =>
    [.connectionList i, .connectionType i, .serverList i] ++
      if session.rsslDefaultPort.isEmpty then [] else [.rsslPort i]

def Environment.carryOut (c : RfaCall) : Stage Unit := ignore (env.ask c)

/-- The Windows registry override. -/
def Environment.mergeOverride : Stage Bool := do
  let staged ← env.obtain .createRegistryStaging .registryStaging
  reset .staging
  if !staged then return false
  env.carryOut .load
  env.ask .mergeRegistry

/-- `rfa_t::Init` after the context is initialised. -/
def Environment.populate (config : FullConfig) : Stage Bool := do
  if !(← env.obtain .createStaging .staging) then return false
  forEach env.carryOut (settings config)
  if !(← env.obtain .acquireConfig .configDatabase) then return false
  if !(← env.ask .merge) then return false
  if config.key.isEmpty then return true
  env.mergeOverride

/-- `staging` of `rfa_t::Init` is destroyed. -/
def leaveScope : Stage Unit := do
  reset .staging
  reset .registryStaging

/-- `rfa_t::Init`. -/
def Environment.rfaInit (config : FullConfig) : Stage Bool := do
  acquire .context
  let ok ← unwinding (env.populate config) leaveScope
  leaveScope
  return ok

/-- `event_queue_.reset (create (..), destroy)`; the pointer is handed to the deleter where the
control block cannot be allocated. -/
def Environment.newQueue : Stage Bool := do
  let ok ← env.obtain .createEventQueue .eventQueue
  unwinding (env.carryOut .newQueueBlock) destroyQueue
  Step.modify fun s => { s with eventQueue := true, queueCount := 1 }
  return ok

/-- `log_.reset (new LogEventProvider (config_, event_queue_))`. -/
def Environment.newLog : Stage Bool := do
  if !(← env.ask .newLog) then return false
  Step.modify fun s => { s with logCount := 1, queueCount := s.queueCount + 1 }
  return true

/-- `LogEventProvider::Register`. -/
def Environment.register : Stage Bool := do
  if !(← env.obtain .acquireLogger .logger) then return false
  if !(← env.obtain .createMonitor .monitor) then return false
  env.obtain .registerLoggerClient .loggerClient

/-- `session_t::session_t`, and `sessions_.push_back`. -/
def Environment.newSession (i : Nat) : Stage Unit := do
  env.carryOut (.newSession i)
  Step.modify fun s => { s with
    sessions := s.sessions ++ [i]
    rfaCount := s.rfaCount + 1
    queueCount := s.queueCount + 1 }

/-- `provider_.reset (new provider_t (config_, rfa_, event_queue_))`. -/
def Environment.newProvider (config : FullConfig) : Stage Bool := do
  if !(← env.ask .newProvider) then return false
  Step.modify fun s => { s with rfaCount := s.rfaCount + 1 }
  unwinding (forEach env.newSession (List.range config.sessions.length)) destroyProvider
  Step.modify fun s => { s with providerCount := 1 }
  return true

/-- `session_t::Init`. -/
def Environment.sessionInit (i : Nat) : Stage Bool :=
  env.obtain (.acquireSession i) (.session i)

/-- `session_t::SendLoginRequest`. -/
def Environment.sendLoginRequest (i : Nat) : Stage Bool := do
  env.carryOut (.loginRequest i)
  if !(← env.obtain (.registerLoginClient i) (.loginClient i)) then return false
  env.carryOut (.metaInfo i)
  return true

/-- `session_t::CreateOMMProvider`. -/
def Environment.createOMMProvider (i : Nat) : Stage Bool := do
  deref (.session i)
  if !(← env.obtain (.createOMMProvider i) (.ommProvider i)) then return false
  if !(← env.obtain (.registerErrorClient i) (.errorClient i)) then return false
  env.sendLoginRequest i

/-- `provider_t::Init`; what its sessions return is not looked at. -/
def Environment.providerInit : Stage Bool := do
  let sessions ← Step.gets (·.sessions)
  forEach (fun i => ignore (env.sessionInit i)) sessions
  if !(← env.ask .verifyVersion) then return false
  forEach (fun i => ignore (env.createOMMProvider i)) sessions
  return true

/-- The part of `Init` that starts RFA. -/
def Environment.startRfa (config : FullConfig) : Stage Bool := do
  if !(← env.ask .newRfa) then return false
  Step.modify fun s => { s with rfa := true, rfaCount := 1 }
  if !(← env.rfaInit config) then return false
  if !(← env.newQueue) then return false
  if !(← env.newLog) then return false
  if !(← env.register) then return false
  if !(← env.newProvider config) then return false
  if !(← env.providerInit) then return false
  env.ask .streams

/-- The part of `Init` that starts the message pump. -/
def Environment.startEventPump : Stage Bool := do
  if !(← env.ask .newEventPump) then return false
  Step.modify fun s => { s with eventPump := true, queueCount := s.queueCount + 1 }
  env.ask .newEventThread

/-- `psych_t::Init`. -/
def Environment.init (build : Build) (config : FullConfig) : Stage Bool := do
  if !(← catching (env.startRfa config)) then return false
  if build = .plugin then
    if !(← catching env.startEventPump) then return false
  catching (env.ask .remainder)

/-- `MainLoop`; its end is what `CtrlHandler` locks the event queue for. -/
def Environment.mainLoop (build : Build) : Stage Unit := do
  if build = .application && env.overtaken then
    Step.modify fun s => { s with queueCount := s.queueCount + 1 }

/-- The life of an instance. An application whose `Init` fails is left to the destructor. -/
def Environment.lifetime (build : Build) (config : FullConfig) : Stage Unit := do
  if ← env.init build config then
    env.mainLoop build
    clear
  else if build = .plugin then
    clear
  clear

end

end Psych.Startup
