import Psych.Load.Json
import Psych.Load.Xml

/-!
# Configurations in both formats

A configuration as it is written down, before it is loaded, with its element (`element`) and its
members of a JSON object (`dictionary`). A text that is missing has no attribute and no member. A
number is written as a text that reads as it, in XML, and as itself in JSON.
-/

namespace Psych

/-- The settings outside of sessions and resources that are texts. -/
inductive Setting where
  | key
  | serviceName
  | dacsId
  | monitorName
  | eventQueueName
  | vendorName
  | maximumDataSize
  | interval
  | tolerableDelay
  | retryCount
  | retryDelayMs
  | retryTimeoutMs
  | timeoutMs
  | connectTimeoutMs
  | enableHttpPipelining
  | maximumResponseSize
  | minimumResponseSize
  | requestHttpEncoding
  | timeOffsetConstant
  | panicThreshold
  | httpProxy
  | dnsCacheTimeout
  | baseUrl
deriving DecidableEq

structure SourceAgentX where
  subagent : Option Bool := none
  socket : Option Text := none

structure SourceSession where
  sessionName : Option Text := none
  publisherName : Option Text := none
  connectionName : Option Text := none
  rsslDefaultPort : Option Text := none
  rsslServers : List Text := []
  applicationId : Option Text := none
  instanceId : Option Text := none
  userName : Option Text := none
  position : Option Text := none

structure SourceField where
  name : Text
  id : Int
  /-- The id in XML. -/
  text : Text
  reads : stoi text = some id

structure SourceItem where
  sector : Text
  ric : Option Text
  topic : Option Text

/-- An entitlement code; a file of JSON can hold those of an `int` (`SourceConfig.CodesFit`). -/
structure SourceCode where
  code : Int
  /-- The code in XML. -/
  text : Text
  reads : (if text.isEmpty then 0 else strtoul text) = toUnsignedLong code

structure SourceResource where
  name : Option Text := none
  source : Option Text := none
  path : Option Text := none
  entitlementCode : Option SourceCode := none
  fields : List SourceField := []
  items : List SourceItem := []

structure SourceConfig where
  /-- The SNMP agent, if it is enabled. -/
  snmp : Option SourceAgentX := none
  setting : Setting → Option Text := fun _ => none
  sessions : List SourceSession := []
  resources : List SourceResource := []

/-! ## XML -/

/-- The attributes that are there. -/
def attributesOf (attributes : List (String × Option Text)) : List (String × Text) :=
  OrderedMap.present attributes

/-- An element without text and children. -/
def leaf (tag : String) (attributes : List (String × Option Text)) : Element :=
  .mk tag (attributesOf attributes) [] []

def boolText (b : Bool) : Text := (if b then "true" else "false").toList

def SourceAgentX.agentX (a : SourceAgentX) : Element :=
  leaf "agentX" [("subagent", a.subagent.map boolText), ("socket", a.socket)]

def SourceAgentX.element (a : SourceAgentX) : Element := .mk "Snmp" [] [] [a.agentX]

def serverElement (server : Text) : Element := .mk "server" [] server []

def SourceSession.publisher (s : SourceSession) : Element :=
  leaf "publisher" [("name", s.publisherName)]

def SourceSession.connection (s : SourceSession) : Element :=
  .mk "connection" (attributesOf [("name", s.connectionName), ("defaultPort", s.rsslDefaultPort)])
    [] (s.rsslServers.map serverElement)

def SourceSession.login (s : SourceSession) : Element :=
  leaf "login" [("applicationId", s.applicationId), ("instanceId", s.instanceId),
    ("userName", s.userName), ("position", s.position)]

def SourceSession.element (s : SourceSession) : Element :=
  .mk "session" (attributesOf [("name", s.sessionName)]) [] [s.publisher, s.connection, s.login]

def SourceField.element (f : SourceField) : Element :=
  leaf "field" [("name", some f.name), ("id", some f.text)]

def SourceItem.element (i : SourceItem) : Element :=
  leaf "item" [("name", i.ric), ("topic", i.topic), ("src", some i.sector)]

def SourceResource.link (r : SourceResource) : Element :=
  leaf "link" [("rel", some "resource".toList), ("name", r.source),
    ("id", r.entitlementCode.map SourceCode.text), ("href", r.path)]

def SourceResource.element (r : SourceResource) : Element :=
  .mk "resource" (attributesOf [("name", r.name)]) []
    (r.link :: (r.fields.map SourceField.element ++ r.items.map SourceItem.element))

def SourceConfig.rfa (a : SourceConfig) : Element :=
  .mk "Rfa" (attributesOf [("key", a.setting .key),
      ("maximumDataSize", a.setting .maximumDataSize)]) []
    (leaf "service" [("name", a.setting .serviceName)] ::
      leaf "DACS" [("id", a.setting .dacsId)] ::
      (a.sessions.map SourceSession.element ++
        [leaf "monitor" [("name", a.setting .monitorName)],
          leaf "eventQueue" [("name", a.setting .eventQueueName)],
          leaf "vendor" [("name", a.setting .vendorName)]]))

/-- The attributes of `<psych>`. -/
def psychAttributes : List (String × Setting) :=
  [("interval", .interval), ("tolerableDelay", .tolerableDelay), ("retryCount", .retryCount),
    ("retryDelayMs", .retryDelayMs), ("retryTimeoutMs", .retryTimeoutMs),
    ("timeoutMs", .timeoutMs), ("connectTimeoutMs", .connectTimeoutMs),
    ("enableHttpPipelining", .enableHttpPipelining),
    ("maximumResponseSize", .maximumResponseSize), ("minimumResponseSize", .minimumResponseSize),
    ("requestHttpEncoding", .requestHttpEncoding), ("timeOffsetConstant", .timeOffsetConstant),
    ("panicThreshold", .panicThreshold), ("httpProxy", .httpProxy),
    ("dnsCacheTimeout", .dnsCacheTimeout), ("href", .baseUrl)]

def SourceConfig.psych (a : SourceConfig) : Element :=
  .mk "psych" (attributesOf (psychAttributes.map fun e => (e.1, a.setting e.2))) []
    (a.resources.map SourceResource.element)

def SourceConfig.config (a : SourceConfig) : Element :=
  .mk "config" [] [] ((a.snmp.map SourceAgentX.element).toList ++ [a.rfa, a.psych])

/-- The element `ParseDomElement` is given. -/
def SourceConfig.element (a : SourceConfig) : Element := .mk "UserPlugin" [] [] [a.config]

/-! ## JSON -/

/-- The members that are there. -/
def membersOf (members : List (String × Option JsonValue)) : List (Text × JsonValue) :=
  OrderedMap.present (members.map fun m => (m.1.toList, m.2))

def Dictionary.of (members : List (String × Option JsonValue)) : Dictionary :=
  .ofMembers (membersOf members)

def SourceSession.members (s : SourceSession) : List (String × Option JsonValue) :=
  [("session_name", s.sessionName.map .string),
    ("connection_name", s.connectionName.map .string),
    ("publisher_name", s.publisherName.map .string),
    ("rssl_servers", some (.list (s.rsslServers.map .string))),
    ("rssl_default_port", s.rsslDefaultPort.map .string),
    ("application_id", s.applicationId.map .string),
    ("instance_id", s.instanceId.map .string),
    ("user_name", s.userName.map .string),
    ("position", s.position.map .string)]

def SourceSession.dictionary (s : SourceSession) : Dictionary := .of s.members

def SourceItem.dictionary (i : SourceItem) : Dictionary :=
  .of [("RIC", i.ric.map .string), ("topic", i.topic.map .string)]

def SourceResource.members (r : SourceResource) : List (String × Option JsonValue) :=
  [("name", r.name.map .string),
    ("source", r.source.map .string),
    ("path", r.path.map .string),
    ("entitlement_code", r.entitlementCode.map fun c => .integer c.code),
    ("fields", some (.dictionary (Dictionary.ofMembers
      (r.fields.map fun f => (f.name, .integer f.id))))),
    ("items", some (.dictionary (Dictionary.ofMembers
      (r.items.map fun i => (i.sector, .dictionary i.dictionary)))))]

def SourceResource.dictionary (r : SourceResource) : Dictionary := .of r.members

/-- The members of the document that are texts. -/
def textMembers : List (String × Setting) :=
  [("key", .key), ("service_name", .serviceName), ("dacs_id", .dacsId),
    ("monitor_name", .monitorName), ("event_queue_name", .eventQueueName),
    ("vendor_name", .vendorName), ("maximum_data_size", .maximumDataSize),
    ("interval", .interval), ("tolerable_delay", .tolerableDelay), ("retry_count", .retryCount),
    ("retry_delay_ms", .retryDelayMs), ("retry_timeout_ms", .retryTimeoutMs),
    ("timeout_ms", .timeoutMs), ("connect_timeout_ms", .connectTimeoutMs),
    ("enable_http_pipelining", .enableHttpPipelining),
    ("maximum_response_size", .maximumResponseSize),
    ("minimum_response_size", .minimumResponseSize),
    ("request_http_encoding", .requestHttpEncoding),
    ("time_offset_constant", .timeOffsetConstant), ("panic_threshold", .panicThreshold),
    ("http_proxy", .httpProxy), ("dns_cache_timeout", .dnsCacheTimeout), ("base_url", .baseUrl)]

def SourceConfig.members (a : SourceConfig) : List (String × Option JsonValue) :=
  ("is_snmp_enabled", some (.boolean a.snmp.isSome)) ::
    ("is_agentx_subagent", a.snmp.bind fun x => x.subagent.map .boolean) ::
    ("agentx_socket", a.snmp.bind fun x => x.socket.map .string) ::
    ("sessions", some (.list (a.sessions.map fun s => .dictionary s.dictionary))) ::
    ("resources", some (.list (a.resources.map fun r => .dictionary r.dictionary))) ::
    textMembers.map fun e => (e.1, (a.setting e.2).map .string)

/-- The dictionary `ParseConfig` is given. -/
def SourceConfig.dictionary (a : SourceConfig) : Dictionary := .of a.members

/-! ## What is written down -/

/-- A text that is there and is not empty. -/
def present (text : Option Text) : Bool := !(text.getD []).isEmpty

def SourceConfig.text (a : SourceConfig) (setting : Setting) : Text := (a.setting setting).getD []

/-- The checks of `Validate`. -/
def SourceSession.valid (s : SourceSession) : Bool :=
  present s.sessionName && present s.connectionName && present s.publisherName &&
  !s.rsslServers.isEmpty && present s.applicationId && present s.instanceId && present s.userName

def SourceResource.valid (r : SourceResource) : Bool :=
  present r.name && present r.path && !r.fields.isEmpty && !r.items.isEmpty

def SourceConfig.valid (a : SourceConfig) : Bool :=
  present (a.setting .serviceName) && !a.sessions.isEmpty && a.sessions.all SourceSession.valid &&
  present (a.setting .monitorName) && present (a.setting .eventQueueName) &&
  present (a.setting .vendorName) && positiveSize (a.text .maximumDataSize) &&
  positiveSize (a.text .maximumResponseSize) && a.resources.all SourceResource.valid

/-- No server, source, field, sector, RIC or topic is empty. -/
def SourceResource.complete (r : SourceResource) : Bool :=
  present r.source && r.fields.all (fun f => !f.name.isEmpty) &&
  r.items.all fun i => !i.sector.isEmpty && present i.ric && present i.topic

def SourceConfig.complete (a : SourceConfig) : Bool :=
  a.sessions.all (fun s => s.rsslServers.all fun server => !server.isEmpty) &&
  a.resources.all SourceResource.complete

def SourceResource.fieldEntries (r : SourceResource) : List (Text × Int) :=
  r.fields.map fun f => (f.name, f.id)

def SourceResource.itemEntries (r : SourceResource) : List (Text × Text × Text) :=
  r.items.map fun i => (i.sector, i.ric.getD [], i.topic.getD [])

/-- The first and the last entry of every name are the same. -/
def Consistent {ν : Type} (entries : List (Text × ν)) : Prop :=
  ∀ name, entries.lookup name = entries.reverse.lookup name

def SourceConfig.Consistent (a : SourceConfig) : Prop :=
  ∀ r ∈ a.resources, Psych.Consistent r.fieldEntries ∧ Psych.Consistent r.itemEntries

/-! ## What is loaded -/

/-- The entries of a map that keeps the first or the last value of a name. -/
def collect {ν : Type} (first : Bool) (entries : List (Text × ν)) : List (Text × ν) :=
  if first then OrderedMap.firsts entries else OrderedMap.lasts entries

def SourceSession.loaded (s : SourceSession) : SessionConfig where
  sessionName := s.sessionName.getD []
  connectionName := s.connectionName.getD []
  publisherName := s.publisherName.getD []
  rsslServers := s.rsslServers
  rsslDefaultPort := s.rsslDefaultPort.getD []
  applicationId := s.applicationId.getD []
  instanceId := s.instanceId.getD []
  userName := s.userName.getD []
  position := s.position.getD []

def SourceResource.loaded (first : Bool) (r : SourceResource) : Resource where
  name := r.name.getD []
  source := r.source.getD []
  path := r.path.getD []
  entitlementCode := (r.entitlementCode.map fun c => toUnsignedLong c.code).getD 0
  fields := collect first r.fieldEntries
  items := collect first r.itemEntries

/-- The loaded configuration, where maps keep the first or the last value of a name. -/
def SourceConfig.loaded (first : Bool) (a : SourceConfig) : FullConfig where
  isSnmpEnabled := a.snmp.isSome
  isAgentxSubagent := (a.snmp.bind SourceAgentX.subagent).getD true
  agentxSocket := (a.snmp.bind SourceAgentX.socket).getD []
  key := a.text .key
  serviceName := a.text .serviceName
  dacsId := a.text .dacsId
  sessions := a.sessions.map SourceSession.loaded
  monitorName := a.text .monitorName
  eventQueueName := a.text .eventQueueName
  vendorName := a.text .vendorName
  maximumDataSize := a.text .maximumDataSize
  interval := a.text .interval
  tolerableDelay := a.text .tolerableDelay
  retryCount := a.text .retryCount
  retryDelayMs := a.text .retryDelayMs
  retryTimeoutMs := a.text .retryTimeoutMs
  timeoutMs := a.text .timeoutMs
  connectTimeoutMs := a.text .connectTimeoutMs
  enableHttpPipelining := a.text .enableHttpPipelining
  maximumResponseSize := a.text .maximumResponseSize
  minimumResponseSize := a.text .minimumResponseSize
  requestHttpEncoding := a.text .requestHttpEncoding
  timeOffsetConstant := a.text .timeOffsetConstant
  panicThreshold := a.text .panicThreshold
  httpProxy := a.text .httpProxy
  dnsCacheTimeout := a.text .dnsCacheTimeout
  baseUrl := a.text .baseUrl
  resources := a.resources.map (SourceResource.loaded first)

theorem isEmpty_collect {ν : Type} (first : Bool) (entries : List (Text × ν)) :
    (collect first entries).isEmpty = entries.isEmpty := by
  have hnil : collect first entries = [] ↔ entries = [] := by
    cases first
    · exact OrderedMap.lasts_eq_nil_iff entries
    · exact OrderedMap.firsts_eq_nil_iff entries
  rw [Bool.eq_iff_iff, List.isEmpty_iff, List.isEmpty_iff, hnil]

/-- Which value a map keeps does not matter to `Validate`. -/
theorem validate_loaded (first : Bool) (a : SourceConfig) :
    (a.loaded first).validate = a.valid := by
  have hresource : ∀ r : SourceResource, (r.loaded first).valid = r.valid := by
    intro r
    simp [Resource.valid, SourceResource.valid, SourceResource.loaded, present, isEmpty_collect,
      SourceResource.fieldEntries, SourceResource.itemEntries]
  have hsession : ∀ s : SourceSession, s.loaded.valid = s.valid := fun s => rfl
  simp only [Config.validate, SourceConfig.valid, SourceConfig.loaded, List.all_map,
    Function.comp_def, hresource, hsession, List.isEmpty_map]
  rfl

theorem loaded_eq_iff (a : SourceConfig) : a.loaded true = a.loaded false ↔ a.Consistent := by
  have hresource : ∀ r : SourceResource, r.loaded true = r.loaded false ↔
      Psych.Consistent r.fieldEntries ∧ Psych.Consistent r.itemEntries := by
    intro r
    unfold Psych.Consistent
    rw [← OrderedMap.firsts_eq_lasts_iff, ← OrderedMap.firsts_eq_lasts_iff]
    simp [SourceResource.loaded, collect]
  unfold SourceConfig.Consistent
  simp only [← hresource]
  rw [← List.map_inj_left]
  simp [SourceConfig.loaded]

/-! ## Steps of a loader -/

theorem ok_bind {α β : Type} (x : α) (rest : α → Except LoadFault β) :
    ((.ok x : Except LoadFault α) >>= rest) = rest x := rfl

/-- A step that is accepted under a condition, and the rest. -/
theorem bind_accept {α β : Type} (b : Bool) (x : α) (rest : α → Except LoadFault β) :
    ((if b then .ok x else .error .rejected : Except LoadFault α) >>= rest) =
      if b then rest x else .error .rejected := by
  cases b <;> rfl

theorem accept_and {α : Type} (b b' : Bool) (x : α) :
    (if b then (if b' then .ok x else .error .rejected) else .error .rejected) =
      (if b && b' then .ok x else .error .rejected : Except LoadFault α) := by
  cases b <;> rfl

theorem map_accept {α β : Type} (b : Bool) (x : α) (f : α → β) :
    (if b then .ok x else .error .rejected : Except LoadFault α).map f =
      if b then .ok (f x) else .error .rejected := by
  cases b <;> rfl

theorem foldl_sessions (sessions : List SourceSession) (c : FullConfig) :
    sessions.foldl (fun c s => { c with sessions := c.sessions ++ [s.loaded] }) c =
      { c with sessions := c.sessions ++ sessions.map SourceSession.loaded } := by
  induction sessions generalizing c with
  | nil => simp
  | cons s sessions ih => rw [List.foldl_cons, ih]; simp

theorem foldl_resources (first : Bool) (resources : List SourceResource) (c : FullConfig) :
    resources.foldl (fun c r => { c with resources := c.resources ++ [r.loaded first] }) c =
      { c with resources := c.resources ++ resources.map (SourceResource.loaded first) } := by
  induction resources generalizing c with
  | nil => simp
  | cons r resources ih => rw [List.foldl_cons, ih]; simp

end Psych
