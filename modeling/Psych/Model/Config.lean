import Psych.Text.Strings

/-!
# Configuration

`session_config_t`, `resource_t` and `config_t`, with the settings the modelled functions
read, and `config_t::Validate`. A `std::map` is the list of its entries. `FullConfig` adds the
settings that are only loaded.
-/

namespace Psych

structure SessionConfig where
  sessionName : Text
  connectionName : Text
  publisherName : Text
  rsslServers : List Text
  rsslDefaultPort : Text := []
  applicationId : Text
  instanceId : Text
  userName : Text
  position : Text := []
deriving DecidableEq

structure Resource where
  name : Text
  /-- The source feed name. -/
  source : Text
  path : Text
  /-- The DACS numeric entitlement code (PE). -/
  entitlementCode : Nat
  /-- Column name to FID. -/
  fields : List (Text × Int)
  /-- Sector to RIC and topic. -/
  items : List (Text × Text × Text)
deriving DecidableEq

structure Config where
  serviceName : Text := []
  dacsId : Text := []
  sessions : List SessionConfig := []
  monitorName : Text := []
  eventQueueName : Text := []
  vendorName : Text := []
  maximumDataSize : Text := []
  /-- The poll and publish interval, in seconds. -/
  interval : Text := []
  /-- How often to retry after a transient error: timeout or HTTP 5xx response. -/
  retryCount : Text := []
  retryDelayMs : Text := []
  retryTimeoutMs : Text := []
  timeoutMs : Text := []
  connectTimeoutMs : Text := []
  /-- Responses will be rejected above this size. -/
  maximumResponseSize : Text := []
  /-- Responses will be rejected below this size. -/
  minimumResponseSize : Text := []
  requestHttpEncoding : Text := []
  timeOffsetConstant : Text := []
  /-- The sanity check of the clock offset of the file modification time. -/
  panicThreshold : Text := []
  httpProxy : Text := []
  dnsCacheTimeout : Text := []
  baseUrl : Text := []
  resources : List Resource := []
deriving DecidableEq

/-- `config_t`; the values are those of its constructor. -/
structure FullConfig extends Config where
  isSnmpEnabled : Bool := false
  /-- Net-SNMP agent or sub-agent. -/
  isAgentxSubagent : Bool := true
  /-- Net-SNMP file log target. -/
  snmpFilelog : Text := []
  agentxSocket : Text := []
  /-- Windows registry key path. -/
  key : Text := []
  tolerableDelay : Text := []
  enableHttpPipelining : Text := []
deriving DecidableEq

/-- How a loader ends that does not return true. -/
inductive LoadFault where
  /-- It returns false. -/
  | rejected
  /-- A pointer or a value is used for what it is not. -/
  | undefined
  /-- `std::stoi` throws, for a text without digits or for a number that is no `int`. -/
  | invalidArgument
  | outOfRange
deriving DecidableEq

/-- A check that a loader leaves with false where it fails. -/
def require (ok : Bool) : Except LoadFault Unit := if ok then .ok () else .error .rejected

/-- The checks `Validate` makes of one session. -/
def SessionConfig.valid (session : SessionConfig) : Bool :=
  !session.sessionName.isEmpty && !session.connectionName.isEmpty &&
  !session.publisherName.isEmpty && !session.rsslServers.isEmpty &&
  !session.applicationId.isEmpty && !session.instanceId.isEmpty && !session.userName.isEmpty

/-- The checks `Validate` makes of one resource. -/
def Resource.valid (resource : Resource) : Bool :=
  !resource.name.isEmpty && !resource.path.isEmpty && !resource.fields.isEmpty &&
  !resource.items.isEmpty

/-- A size that must be provided for buffer allocation. -/
def positiveSize (size : Text) : Bool := !size.isEmpty && decide (0 < atol size)

def Config.validate (config : Config) : Bool :=
  !config.serviceName.isEmpty && !config.sessions.isEmpty &&
  config.sessions.all SessionConfig.valid &&
  !config.monitorName.isEmpty && !config.eventQueueName.isEmpty && !config.vendorName.isEmpty &&
  positiveSize config.maximumDataSize && positiveSize config.maximumResponseSize &&
  config.resources.all Resource.valid

end Psych
