import Mathlib.Data.Char
import Psych.Library.OrderedMap
import Psych.Model.Config

/-!
# The configuration in XML

`ParseDomElement` and the functions it calls, on an element with its attributes, its text and
its children. A setting that is read where it is empty stays as it was; most names may not be
empty. A `std::map` is in the order of its keys.
-/

namespace Psych

/-! ## Elements -/

/-- `DOMElement`. Its text comes before its children; what text there is after a child is a child
itself, with the name `#text`. -/
inductive Element where
  | mk (tag : String) (attributes : List (String × Text)) (text : Text) (children : List Element)

def Element.tag : Element → String
  | .mk tag _ _ _ => tag

def Element.attributes : Element → List (String × Text)
  | .mk _ attributes _ _ => attributes

def Element.text : Element → Text
  | .mk _ _ text _ => text

mutual

/-- The elements below an element, in document order. -/
def Element.descendants : Element → List Element
  | .mk _ _ _ children => descendantsOf children

def descendantsOf : List Element → List Element
  | [] => []
  | e :: elements => e :: (e.descendants ++ descendantsOf elements)

end

/-- An attribute that is not there reads as the empty text. -/
def Element.getAttribute (e : Element) (name : String) : Text := (e.attributes.lookup name).getD []

def Element.hasAttributes (e : Element) : Bool := !e.attributes.isEmpty

def Element.getElementsByTagName (e : Element) (tag : String) : List Element :=
  e.descendants.filter fun element => element.tag == tag

/-- The text of an element and of the nodes below it, in document order. -/
def Element.getTextContent (e : Element) : Text := e.text ++ e.descendants.flatMap Element.text

/-- The loop over the elements of one name; a function that fails leaves it. -/
def Element.parseAll {σ : Type} (e : Element) (tag : String)
    (parse : Element → σ → Except LoadFault σ) (s : σ) : Except LoadFault σ :=
  (e.getElementsByTagName tag).foldlM (fun s node => parse node s) s

/-- The value of an attribute, unless it is empty. -/
def Element.setting (e : Element) (name : String) (old : Text) : Text :=
  let attr := e.getAttribute name
  if attr.isEmpty then old else attr

/-- A name that may not be empty. -/
def Element.required (e : Element) (name : String) : Except LoadFault Text :=
  let attr := e.getAttribute name
  if attr.isEmpty then .error .rejected else .ok attr

/-! ## Snmp -/

def parseAgentXNode (e : Element) (c : FullConfig) : Except LoadFault FullConfig :=
  let attr := e.getAttribute "subagent"
  .ok { c with
    isAgentxSubagent := if attr.isEmpty then c.isAgentxSubagent else attr == "true".toList
    agentxSocket := e.setting "socket" c.agentxSocket }

def parseSnmpNode (e : Element) (c : FullConfig) : Except LoadFault FullConfig := do
  let c : FullConfig := { c with snmpFilelog := e.setting "filelog" c.snmpFilelog }
  let c ← e.parseAll "agentX" parseAgentXNode c
  .ok { c with isSnmpEnabled := true }

/-! ## Rfa -/

def parseServiceNode (e : Element) (c : FullConfig) : Except LoadFault FullConfig := do
  let name ← e.required "name"
  .ok { c with serviceName := name }

def parseDacsNode (e : Element) (c : FullConfig) : Except LoadFault FullConfig :=
  .ok { c with dacsId := e.setting "id" c.dacsId }

def parseMonitorNode (e : Element) (c : FullConfig) : Except LoadFault FullConfig :=
  .ok { c with monitorName := e.setting "name" c.monitorName }

def parseEventQueueNode (e : Element) (c : FullConfig) : Except LoadFault FullConfig :=
  .ok { c with eventQueueName := e.setting "name" c.eventQueueName }

def parseVendorNode (e : Element) (c : FullConfig) : Except LoadFault FullConfig :=
  .ok { c with vendorName := e.setting "name" c.vendorName }

def parsePublisherNode (e : Element) (session : SessionConfig) : Except LoadFault SessionConfig :=
  .ok { session with publisherName := e.getAttribute "name" }

def parseServerNode (e : Element) (session : SessionConfig) : Except LoadFault SessionConfig :=
  let server := e.getTextContent
  if server.isEmpty then .error .rejected
  else .ok { session with rsslServers := session.rsslServers ++ [server] }

def parseConnectionNode (e : Element) (session : SessionConfig) :
    Except LoadFault SessionConfig := do
  let name ← e.required "name"
  e.parseAll "server" parseServerNode
    { session with connectionName := name, rsslDefaultPort := e.getAttribute "defaultPort" }

def parseLoginNode (e : Element) (session : SessionConfig) : Except LoadFault SessionConfig :=
  .ok { session with
    applicationId := e.getAttribute "applicationId"
    instanceId := e.getAttribute "instanceId"
    userName := e.getAttribute "userName"
    position := e.getAttribute "position" }

/-- `session_config_t` as it is constructed. -/
def SessionConfig.empty : SessionConfig where
  sessionName := []
  connectionName := []
  publisherName := []
  rsslServers := []
  applicationId := []
  instanceId := []
  userName := []

def parseSessionNode (e : Element) (c : FullConfig) : Except LoadFault FullConfig := do
  let name ← e.required "name"
  let session ← e.parseAll "publisher" parsePublisherNode
    { SessionConfig.empty with sessionName := name }
  let session ← e.parseAll "connection" parseConnectionNode session
  let session ← e.parseAll "login" parseLoginNode session
  .ok { c with sessions := c.sessions ++ [session] }

def parseRfaNode (e : Element) (c : FullConfig) : Except LoadFault FullConfig := do
  let c : FullConfig := { c with
    key := e.setting "key" c.key
    maximumDataSize := e.setting "maximumDataSize" c.maximumDataSize }
  let c ← e.parseAll "service" parseServiceNode c
  let c ← e.parseAll "DACS" parseDacsNode c
  let c ← e.parseAll "session" parseSessionNode c
  let c ← e.parseAll "monitor" parseMonitorNode c
  let c ← e.parseAll "eventQueue" parseEventQueueNode c
  e.parseAll "vendor" parseVendorNode c

/-! ## psych -/

/-- `std::strtoul`, where `unsigned long` has 32 bits: 0 without digits, the largest value out of
range. -/
def strtoul (s : Text) : Nat :=
  let (n, digits) := readInteger s
  if !digits then 0
  else if n.natAbs < 4294967296 then (n % 4294967296).toNat
  else 4294967295

/-- The name and the id of a field. -/
def parseFieldNode (e : Element) : Except LoadFault (Text × Int) := do
  require e.hasAttributes
  let name ← e.required "name"
  let text ← e.required "id"
  match stoi text with
  | none => .error (if (readInteger text).2 then .outOfRange else .invalidArgument)
  | some id => .ok (name, id)

/-- The sector of an item, with its RIC and its topic. -/
def parseItemNode (e : Element) : Except LoadFault (Text × Text × Text) := do
  require e.hasAttributes
  let name ← e.required "name"
  let topic ← e.required "topic"
  let src ← e.required "src"
  .ok (src, name, topic)

/-- The source, the path and the entitlement code of a link. -/
def parseLinkNode (e : Element) : Except LoadFault (Text × Text × Nat) := do
  require e.hasAttributes
  let _ ← e.required "rel"
  let source ← e.required "name"
  let href ← e.required "href"
  let text := e.getAttribute "id"
  .ok (source, href, if text.isEmpty then 0 else strtoul text)

/-- A resource is added for every link. -/
def parseResourceNode (e : Element) (c : FullConfig) : Except LoadFault FullConfig := do
  require e.hasAttributes
  let name ← e.required "name"
  let fields ← e.parseAll "field" (fun node fields =>
    (parseFieldNode node).map (OrderedMap.emplace fields)) []
  let items ← e.parseAll "item" (fun node items =>
    (parseItemNode node).map (OrderedMap.emplace items)) []
  e.parseAll "link" (fun node c => do
    let (source, path, entitlementCode) ← parseLinkNode node
    .ok { c with resources := c.resources ++
      [{ name, source, path, entitlementCode, fields, items }] }) c

def parsePsychNode (e : Element) (c : FullConfig) : Except LoadFault FullConfig :=
  e.parseAll "resource" parseResourceNode { c with
    interval := e.setting "interval" c.interval
    tolerableDelay := e.setting "tolerableDelay" c.tolerableDelay
    retryCount := e.setting "retryCount" c.retryCount
    retryDelayMs := e.setting "retryDelayMs" c.retryDelayMs
    retryTimeoutMs := e.setting "retryTimeoutMs" c.retryTimeoutMs
    timeoutMs := e.setting "timeoutMs" c.timeoutMs
    connectTimeoutMs := e.setting "connectTimeoutMs" c.connectTimeoutMs
    enableHttpPipelining := e.setting "enableHttpPipelining" c.enableHttpPipelining
    maximumResponseSize := e.setting "maximumResponseSize" c.maximumResponseSize
    minimumResponseSize := e.setting "minimumResponseSize" c.minimumResponseSize
    requestHttpEncoding := e.setting "requestHttpEncoding" c.requestHttpEncoding
    timeOffsetConstant := e.setting "timeOffsetConstant" c.timeOffsetConstant
    panicThreshold := e.setting "panicThreshold" c.panicThreshold
    httpProxy := e.setting "httpProxy" c.httpProxy
    dnsCacheTimeout := e.setting "dnsCacheTimeout" c.dnsCacheTimeout
    baseUrl := e.setting "href" c.baseUrl
    -- the resources that are there are kept without their fields and items
    resources := c.resources.map fun resource => { resource with fields := [], items := [] } }

/-! ## The document -/

def parseConfigNode (e : Element) (c : FullConfig) : Except LoadFault FullConfig := do
  let c ← e.parseAll "Snmp" parseSnmpNode c
  let c ← e.parseAll "Rfa" parseRfaNode c
  e.parseAll "psych" parsePsychNode c

def parseDomElement (root : Element) (c : FullConfig) : Except LoadFault FullConfig := do
  let c ← root.parseAll "config" parseConfigNode c
  if c.validate then .ok c else .error .rejected

end Psych
