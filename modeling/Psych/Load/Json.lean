import Mathlib.Data.Char
import Psych.Library.OrderedMap
import Psych.Model.Config

/-!
# The configuration in JSON

`ParseConfig` and the functions it calls, on a dictionary of values. A text that is there is read
even if it is empty, and no name is looked at before `Validate`. A `CHECK` that fails is logged and
nothing else: the loader goes on with what its variables hold, which is undefined where a pointer is
null or the value behind it has another type, and otherwise takes the old value for the new one.
-/

namespace Psych

/-! ## Values -/

/-- `chromium::Value`; a dictionary is in the order of its keys. The reader makes an integer of an
`int` only (`JsonNode.Readable`), and the loader computes with none but modulo `2 ^ 32`. -/
inductive JsonValue where
  | boolean (b : Bool)
  | integer (n : Int)
  | string (s : Text)
  | list (l : List JsonValue)
  | dictionary (d : List (Text × JsonValue))

abbrev Dictionary := List (Text × JsonValue)

/-- The dictionary the reader makes of the members of an object: `SetWithoutPathExpansion` replaces
the value of a key that is there. -/
def Dictionary.ofMembers (members : List (Text × JsonValue)) : Dictionary := OrderedMap.lasts members

/-- `Get`; the keys of settings have no dots, so there is no path to expand. -/
def Dictionary.get (d : Dictionary) (key : String) : Option JsonValue := d.lookup key.toList

def JsonValue.asBoolean : JsonValue → Option Bool
  | .boolean b => some b
  | _ => none

def JsonValue.asInteger : JsonValue → Option Int
  | .integer n => some n
  | _ => none

def JsonValue.asString : JsonValue → Option Text
  | .string s => some s
  | _ => none

def JsonValue.asList : JsonValue → Option (List JsonValue)
  | .list l => some l
  | _ => none

def JsonValue.asDictionary : JsonValue → Option Dictionary
  | .dictionary d => some d
  | _ => none

/-- `GetBoolean`, `GetInteger` and `GetString` leave the old value where there is none of the
type. -/
def Dictionary.getBoolean (d : Dictionary) (key : String) (old : Bool) : Bool :=
  ((d.get key).bind JsonValue.asBoolean).getD old

def Dictionary.getInteger (d : Dictionary) (key : String) (old : Int) : Int :=
  ((d.get key).bind JsonValue.asInteger).getD old

def Dictionary.getString (d : Dictionary) (key : String) (old : Text) : Text :=
  ((d.get key).bind JsonValue.asString).getD old

/-- What is used after a `CHECK` of it, whether that failed or not. -/
def used {α : Type} : Option α → Except LoadFault α
  | none => .error .undefined
  | some a => .ok a

/-- `unsigned long` of an `int`: 32 bits, the sign is lost. -/
def toUnsignedLong (n : Int) : Nat := (n % 4294967296).toNat

/-! ## Sessions and resources -/

def parseSession (d : Dictionary) (c : FullConfig) : Except LoadFault FullConfig := do
  let list ← used ((d.get "rssl_servers").bind JsonValue.asList)
  .ok { c with sessions := c.sessions ++ [{
    sessionName := d.getString "session_name" []
    connectionName := d.getString "connection_name" []
    publisherName := d.getString "publisher_name" []
    -- `rssl_server` is an empty text before `GetString`
    rsslServers := list.map fun value => value.asString.getD []
    rsslDefaultPort := d.getString "rssl_default_port" []
    applicationId := d.getString "application_id" []
    instanceId := d.getString "instance_id" []
    userName := d.getString "user_name" []
    position := d.getString "position" [] }] }

/-- One entry of the fields of a resource, with `integer_value`, which a value of another type
leaves as it was. -/
def parseField (s : List (Text × Int) × Int) (entry : Text × JsonValue) : List (Text × Int) × Int :=
  let integerValue := entry.2.asInteger.getD s.2
  (OrderedMap.emplace s.1 (entry.1, integerValue), integerValue)

/-- One entry of the items of a resource. -/
def parseItem (items : List (Text × Text × Text)) (entry : Text × JsonValue) :
    Except LoadFault (List (Text × Text × Text)) := do
  let item ← used entry.2.asDictionary
  .ok (OrderedMap.emplace items (entry.1, item.getString "RIC" [], item.getString "topic" []))

def parseResource (d : Dictionary) (c : FullConfig) : Except LoadFault FullConfig := do
  let integerValue := d.getInteger "entitlement_code" 0
  let entries ← used ((d.get "fields").bind JsonValue.asDictionary)
  -- where there is no `items`, `tmp_value` still is the dictionary of the fields
  let itemEntries ← used (((d.get "items").getD (.dictionary entries)).asDictionary)
  let items ← itemEntries.foldlM parseItem []
  .ok { c with resources := c.resources ++ [{
    name := d.getString "name" []
    source := d.getString "source" []
    path := d.getString "path" []
    entitlementCode := toUnsignedLong integerValue
    fields := (entries.foldl parseField ([], integerValue)).1
    items := items }] }

/-! ## The document -/

/-- The loop over a list of dictionaries. -/
def parseDictionaries (parse : Dictionary → FullConfig → Except LoadFault FullConfig)
    (list : List JsonValue) (c : FullConfig) : Except LoadFault FullConfig :=
  list.foldlM (fun c value => do
    let d ← used value.asDictionary
    parse d c) c

def parseConfig (d : Dictionary) (c : FullConfig) : Except LoadFault FullConfig := do
  require (d.get "sessions").isSome
  require (d.get "resources").isSome
  let c : FullConfig := { c with
    isSnmpEnabled := d.getBoolean "is_snmp_enabled" c.isSnmpEnabled
    isAgentxSubagent := d.getBoolean "is_agentx_subagent" c.isAgentxSubagent
    agentxSocket := d.getString "agentx_socket" c.agentxSocket
    key := d.getString "key" c.key
    serviceName := d.getString "service_name" c.serviceName
    dacsId := d.getString "dacs_id" c.dacsId }
  let list ← used ((d.get "sessions").bind JsonValue.asList)
  let c ← parseDictionaries parseSession list c
  let c : FullConfig := { c with
    monitorName := d.getString "monitor_name" c.monitorName
    eventQueueName := d.getString "event_queue_name" c.eventQueueName
    vendorName := d.getString "vendor_name" c.vendorName
    maximumDataSize := d.getString "maximum_data_size" c.maximumDataSize
    interval := d.getString "interval" c.interval
    tolerableDelay := d.getString "tolerable_delay" c.tolerableDelay
    retryCount := d.getString "retry_count" c.retryCount
    retryDelayMs := d.getString "retry_delay_ms" c.retryDelayMs
    retryTimeoutMs := d.getString "retry_timeout_ms" c.retryTimeoutMs
    timeoutMs := d.getString "timeout_ms" c.timeoutMs
    connectTimeoutMs := d.getString "connect_timeout_ms" c.connectTimeoutMs
    enableHttpPipelining := d.getString "enable_http_pipelining" c.enableHttpPipelining
    maximumResponseSize := d.getString "maximum_response_size" c.maximumResponseSize
    minimumResponseSize := d.getString "minimum_response_size" c.minimumResponseSize
    requestHttpEncoding := d.getString "request_http_encoding" c.requestHttpEncoding
    timeOffsetConstant := d.getString "time_offset_constant" c.timeOffsetConstant
    panicThreshold := d.getString "panic_threshold" c.panicThreshold
    httpProxy := d.getString "http_proxy" c.httpProxy
    dnsCacheTimeout := d.getString "dns_cache_timeout" c.dnsCacheTimeout
    baseUrl := d.getString "base_url" c.baseUrl }
  -- where the resources are no list, `list` still is that of the sessions
  let list := ((d.get "resources").bind JsonValue.asList).getD list
  let c ← parseDictionaries parseResource list c
  if c.validate then .ok c else .error .rejected

end Psych
