import Psych.Load.Source

/-!
# What the XML loader makes of a configuration

`parseDomElement_element`: the element of a configuration is accepted exactly when nothing is
empty that may not be, and every map keeps the first value of a name.
-/

namespace Psych

/-! ## Elements of one name -/

@[simp]
theorem descendants_mk (tag : String) (attributes : List (String × Text)) (text : Text)
    (children : List Element) :
    (Element.mk tag attributes text children).descendants = descendantsOf children := by
  rw [Element.descendants]

@[simp]
theorem descendantsOf_nil : descendantsOf [] = [] := by rw [descendantsOf]

@[simp]
theorem descendantsOf_cons (e : Element) (elements : List Element) :
    descendantsOf (e :: elements) = e :: (e.descendants ++ descendantsOf elements) := by
  rw [descendantsOf]

@[simp]
theorem descendantsOf_append (l l' : List Element) :
    descendantsOf (l ++ l') = descendantsOf l ++ descendantsOf l' := by
  induction l with
  | nil => simp
  | cons e l ih => simp [ih]

/-- The elements of one name among some elements and those below them. -/
def named (tag : String) (elements : List Element) : List Element :=
  (descendantsOf elements).filter fun e => e.tag == tag

theorem getElementsByTagName_mk (tag name : String) (attributes : List (String × Text))
    (text : Text) (children : List Element) :
    (Element.mk tag attributes text children).getElementsByTagName name = named name children := by
  rw [Element.getElementsByTagName, descendants_mk, named]

@[simp]
theorem named_nil (name : String) : named name [] = [] := by simp [named]

theorem named_cons (name : String) (e : Element) (elements : List Element) :
    named name (e :: elements) =
      (if e.tag = name then [e] else []) ++ e.getElementsByTagName name ++ named name elements := by
  unfold named Element.getElementsByTagName
  rw [descendantsOf_cons, List.filter_cons]
  by_cases htag : e.tag = name <;> simp [htag]

theorem named_append (name : String) (l l' : List Element) :
    named name (l ++ l') = named name l ++ named name l' := by
  simp [named]

/-- Elements of one kind, none of which has an element of the name below it. -/
theorem named_map {α : Type} {name tag : String} {f : α → Element} (l : List α)
    (htag : ∀ x, (f x).tag = tag) (hbelow : ∀ x, (f x).getElementsByTagName name = []) :
    named name (l.map f) = if tag = name then l.map f else [] := by
  induction l with
  | nil => simp
  | cons x l ih =>
    rw [List.map_cons, named_cons, ih, hbelow, htag]
    split <;> simp

theorem leaf_below (name tag : String) (attributes : List (String × Option Text)) :
    (leaf tag attributes).getElementsByTagName name = [] := by
  rw [leaf, getElementsByTagName_mk, named_nil]

@[simp]
theorem named_leaf_cons (name tag : String) (attributes : List (String × Option Text))
    (elements : List Element) :
    named name (leaf tag attributes :: elements) =
      (if tag = name then [leaf tag attributes] else []) ++ named name elements := by
  rw [named_cons, leaf_below, List.append_nil]
  rfl

theorem server_below (name : String) (server : Text) :
    (serverElement server).getElementsByTagName name = [] := by
  rw [serverElement, getElementsByTagName_mk, named_nil]

theorem named_servers (name : String) (servers : List Text) :
    named name (servers.map serverElement) =
      if "server" = name then servers.map serverElement else [] :=
  named_map servers (fun _ => rfl) (server_below name)

theorem connection_elements (name : String) (s : SourceSession) :
    s.connection.getElementsByTagName name =
      if "server" = name then s.rsslServers.map serverElement else [] := by
  rw [SourceSession.connection, getElementsByTagName_mk, named_servers]

theorem session_elements (name : String) (s : SourceSession) :
    s.element.getElementsByTagName name =
      (if "publisher" = name then [s.publisher] else []) ++
        ((if "connection" = name then [s.connection] else []) ++
          (if "server" = name then s.rsslServers.map serverElement else []) ++
            ((if "login" = name then [s.login] else []) ++ [])) := by
  unfold SourceSession.element SourceSession.publisher SourceSession.login
  rw [getElementsByTagName_mk, named_leaf_cons, named_cons, connection_elements, named_leaf_cons,
    named_nil]
  rfl

theorem session_below (s : SourceSession) {name : String}
    (h : name ∉ ["publisher", "connection", "server", "login"]) :
    s.element.getElementsByTagName name = [] := by
  simp only [List.mem_cons, List.not_mem_nil, or_false, not_or] at h
  obtain ⟨hpublisher, hconnection, hserver, hlogin⟩ := h
  rw [session_elements, if_neg (Ne.symm hpublisher), if_neg (Ne.symm hserver),
    if_neg (Ne.symm hlogin), if_neg (Ne.symm hconnection)]
  rfl

theorem named_sessions (sessions : List SourceSession) {name : String}
    (h : name ∉ ["publisher", "connection", "server", "login"]) :
    named name (sessions.map SourceSession.element) =
      if "session" = name then sessions.map SourceSession.element else [] :=
  named_map sessions (fun _ => rfl) fun s => session_below s h

theorem named_fields (name : String) (fields : List SourceField) :
    named name (fields.map SourceField.element) =
      if "field" = name then fields.map SourceField.element else [] :=
  named_map fields (fun _ => rfl) fun _ => leaf_below _ _ _

theorem named_items (name : String) (items : List SourceItem) :
    named name (items.map SourceItem.element) =
      if "item" = name then items.map SourceItem.element else [] :=
  named_map items (fun _ => rfl) fun _ => leaf_below _ _ _

theorem resource_elements (name : String) (r : SourceResource) :
    r.element.getElementsByTagName name =
      (if "link" = name then [r.link] else []) ++
        ((if "field" = name then r.fields.map SourceField.element else []) ++
          if "item" = name then r.items.map SourceItem.element else []) := by
  unfold SourceResource.element
  rw [getElementsByTagName_mk, SourceResource.link, named_leaf_cons, named_append, named_fields,
    named_items]

theorem named_resources (resources : List SourceResource) {name : String}
    (h : name ∉ ["link", "field", "item"]) :
    named name (resources.map SourceResource.element) =
      if "resource" = name then resources.map SourceResource.element else [] := by
  simp only [List.mem_cons, List.not_mem_nil, or_false, not_or] at h
  refine named_map resources (fun _ => rfl) fun r => ?_
  rw [resource_elements, if_neg (Ne.symm h.1), if_neg (Ne.symm h.2.1), if_neg (Ne.symm h.2.2)]
  rfl

theorem rfa_elements (a : SourceConfig) {name : String}
    (h : name ∉ ["publisher", "connection", "server", "login"]) :
    a.rfa.getElementsByTagName name =
      (if "service" = name then [leaf "service" [("name", a.setting .serviceName)]] else []) ++
      ((if "DACS" = name then [leaf "DACS" [("id", a.setting .dacsId)]] else []) ++
      ((if "session" = name then a.sessions.map SourceSession.element else []) ++
      ((if "monitor" = name then [leaf "monitor" [("name", a.setting .monitorName)]] else []) ++
      ((if "eventQueue" = name then
        [leaf "eventQueue" [("name", a.setting .eventQueueName)]] else []) ++
      ((if "vendor" = name then [leaf "vendor" [("name", a.setting .vendorName)]] else []) ++
        []))))) := by
  unfold SourceConfig.rfa
  rw [getElementsByTagName_mk, named_leaf_cons, named_leaf_cons, named_append, named_sessions _ h,
    named_leaf_cons, named_leaf_cons, named_leaf_cons, named_nil]

theorem psych_elements (a : SourceConfig) {name : String} (h : name ∉ ["link", "field", "item"]) :
    a.psych.getElementsByTagName name =
      if "resource" = name then a.resources.map SourceResource.element else [] := by
  unfold SourceConfig.psych
  rw [getElementsByTagName_mk, named_resources _ h]

/-! ## Loops -/

section Loops

variable {α σ : Type} {e : Element} {tag : String} {parse : Element → σ → Except LoadFault σ}

theorem parseAll_one {node : Element} (h : e.getElementsByTagName tag = [node]) (s : σ) :
    e.parseAll tag parse s = parse node s := by
  rw [Element.parseAll, h, List.foldlM_cons]
  simp

/-- Either every node is accepted, or the loader returns false. -/
theorem parseAll_map {l : List α} {f : α → Element} {ok : α → Bool} {push : σ → α → σ}
    (h : e.getElementsByTagName tag = l.map f)
    (hparse : ∀ x s, parse (f x) s = if ok x then .ok (push s x) else .error .rejected) (s : σ) :
    e.parseAll tag parse s = if l.all ok then .ok (l.foldl push s) else .error .rejected := by
  rw [Element.parseAll, h]
  clear h
  induction l generalizing s with
  | nil => rfl
  | cons x l ih =>
    rw [List.map_cons, List.foldlM_cons, hparse, List.all_cons, List.foldl_cons]
    cases ok x with
    | false => rfl
    | true => exact ih (push s x)

end Loops

/-! ## Attributes -/

theorem getAttribute_of {attributes : List (String × Option Text)} {tag name : String}
    {value : Option Text} {text : Text} {children : List Element}
    (hnodup : (attributes.map Prod.fst).Nodup) (hmem : (name, value) ∈ attributes) :
    (Element.mk tag (attributesOf attributes) text children).getAttribute name =
      value.getD [] := by
  rw [Element.getAttribute, Element.attributes, attributesOf, OrderedMap.lookup_present hnodup hmem]

theorem required_of {e : Element} {name : String} {value : Option Text}
    (h : e.getAttribute name = value.getD []) :
    e.required name = if present value then .ok (value.getD []) else .error .rejected := by
  unfold Element.required present
  rw [h]
  cases value.getD [] <;> rfl

/-- A setting that was not set before. -/
theorem setting_nil (e : Element) (name : String) : e.setting name [] = e.getAttribute name := by
  unfold Element.setting
  cases h : e.getAttribute name <;> rfl

theorem psych_attribute (a : SourceConfig) (name : String) (setting : Setting)
    (h : (name, setting) ∈ psychAttributes) : a.psych.getAttribute name = a.text setting :=
  getAttribute_of (by simp [psychAttributes])
    (List.mem_map.mpr ⟨(name, setting), h, rfl⟩)

/-! ## Sessions -/

/-- What `ParseSessionNode` asks of a session. -/
def SourceSession.xmlAccepts (s : SourceSession) : Bool :=
  present s.sessionName && present s.connectionName && s.rsslServers.all fun server => !server.isEmpty

theorem parseServerNode_element (server : Text) (session : SessionConfig) :
    parseServerNode (serverElement server) session =
      if !server.isEmpty then
        .ok { session with rsslServers := session.rsslServers ++ [server] }
      else .error .rejected := by
  unfold parseServerNode Element.getTextContent serverElement
  rw [descendants_mk, descendantsOf_nil, List.flatMap_nil, List.append_nil, Element.text]
  cases server <;> rfl

theorem foldl_servers (servers : List Text) (session : SessionConfig) :
    servers.foldl (fun session server =>
      { session with rsslServers := session.rsslServers ++ [server] }) session =
      { session with rsslServers := session.rsslServers ++ servers } := by
  induction servers generalizing session with
  | nil => simp
  | cons server servers ih => rw [List.foldl_cons, ih]; simp

theorem parseConnectionNode_element (s : SourceSession) (session : SessionConfig) :
    parseConnectionNode s.connection session =
      if present s.connectionName && s.rsslServers.all (fun server => !server.isEmpty) then
        .ok { session with
          connectionName := s.connectionName.getD []
          rsslDefaultPort := s.rsslDefaultPort.getD []
          rsslServers := session.rsslServers ++ s.rsslServers }
      else .error .rejected := by
  have hname : s.connection.getAttribute "name" = s.connectionName.getD [] :=
    getAttribute_of (by simp) (by simp)
  have hport : s.connection.getAttribute "defaultPort" = s.rsslDefaultPort.getD [] :=
    getAttribute_of (by simp) (by simp)
  have hservers : s.connection.getElementsByTagName "server" =
      s.rsslServers.map serverElement := by
    rw [connection_elements, if_pos rfl]
  unfold parseConnectionNode
  rw [required_of hname, bind_accept, hport,
    parseAll_map hservers (fun server session => parseServerNode_element server session),
    foldl_servers, accept_and]

theorem parseLoginNode_element (s : SourceSession) (session : SessionConfig) :
    parseLoginNode s.login session =
      .ok { session with
        applicationId := s.applicationId.getD []
        instanceId := s.instanceId.getD []
        userName := s.userName.getD []
        position := s.position.getD [] } := by
  have hattribute : ∀ name value, (name, value) ∈ [("applicationId", s.applicationId),
        ("instanceId", s.instanceId), ("userName", s.userName), ("position", s.position)] →
      s.login.getAttribute name = value.getD [] := fun name value h => getAttribute_of (by simp) h
  unfold parseLoginNode
  rw [hattribute "applicationId" s.applicationId (by simp),
    hattribute "instanceId" s.instanceId (by simp), hattribute "userName" s.userName (by simp),
    hattribute "position" s.position (by simp)]

theorem parseSessionNode_element (s : SourceSession) (c : FullConfig) :
    parseSessionNode s.element c =
      if s.xmlAccepts then .ok { c with sessions := c.sessions ++ [s.loaded] }
      else .error .rejected := by
  have hname : s.element.getAttribute "name" = s.sessionName.getD [] :=
    getAttribute_of (by simp) (by simp)
  have hpublisher : s.publisher.getAttribute "name" = s.publisherName.getD [] :=
    getAttribute_of (by simp) (by simp)
  have hpublishers : s.element.getElementsByTagName "publisher" = [s.publisher] := by
    rw [session_elements]
    simp
  have hconnections : s.element.getElementsByTagName "connection" = [s.connection] := by
    rw [session_elements]
    simp
  have hlogins : s.element.getElementsByTagName "login" = [s.login] := by
    rw [session_elements]
    simp
  unfold parseSessionNode SourceSession.xmlAccepts
  rw [required_of hname]
  simp only [parseAll_one hpublishers, parsePublisherNode, hpublisher, parseAll_one hconnections,
    parseConnectionNode_element, parseAll_one hlogins, parseLoginNode_element, ok_bind, bind_accept,
    accept_and, Bool.and_assoc]
  rfl

/-! ## Resources -/

theorem parseFieldNode_element (f : SourceField) :
    parseFieldNode f.element =
      if !f.name.isEmpty then .ok (f.name, f.id) else .error .rejected := by
  have hname : f.element.getAttribute "name" = (some f.name).getD [] :=
    getAttribute_of (by simp) (by simp)
  have hid : f.element.getAttribute "id" = (some f.text).getD [] :=
    getAttribute_of (by simp) (by simp)
  have hattributes : f.element.hasAttributes = true := rfl
  have htext : present (some f.text) = true := by
    have hreads := f.reads
    cases htext : f.text with
    | nil =>
      rw [htext] at hreads
      cases hreads
    | cons c text => rfl
  unfold parseFieldNode
  rw [required_of hname, required_of hid, hattributes, htext]
  simp only [require, Option.getD_some, if_true, ok_bind, f.reads, bind_accept]
  rfl

theorem parseItemNode_element (i : SourceItem) :
    parseItemNode i.element =
      if present i.ric && (present i.topic && !i.sector.isEmpty) then
        .ok (i.sector, i.ric.getD [], i.topic.getD [])
      else .error .rejected := by
  have hattribute : ∀ name value, (name, value) ∈ [("name", i.ric), ("topic", i.topic),
        ("src", some i.sector)] →
      i.element.getAttribute name = value.getD [] := fun name value h => getAttribute_of (by simp) h
  have hattributes : i.element.hasAttributes = true := by
    unfold SourceItem.element leaf attributesOf Element.hasAttributes Element.attributes
    simp [OrderedMap.present_cons]
  unfold parseItemNode
  rw [required_of (hattribute "name" i.ric (by simp)),
    required_of (hattribute "topic" i.topic (by simp)),
    required_of (hattribute "src" (some i.sector) (by simp)), hattributes]
  simp only [require, Option.getD_some, if_true, ok_bind, bind_accept, accept_and]
  rfl

theorem parseLinkNode_link (r : SourceResource) :
    parseLinkNode r.link =
      if present r.source && present r.path then
        .ok (r.source.getD [], r.path.getD [],
          (r.entitlementCode.map fun c => toUnsignedLong c.code).getD 0)
      else .error .rejected := by
  have hattribute : ∀ name value, (name, value) ∈ [("rel", some "resource".toList),
        ("name", r.source), ("id", r.entitlementCode.map SourceCode.text), ("href", r.path)] →
      r.link.getAttribute name = value.getD [] := fun name value h => getAttribute_of (by simp) h
  have hattributes : r.link.hasAttributes = true := by
    unfold SourceResource.link leaf attributesOf Element.hasAttributes Element.attributes
    simp [OrderedMap.present_cons]
  have hcode : (if ((r.entitlementCode.map SourceCode.text).getD []).isEmpty then 0
      else strtoul ((r.entitlementCode.map SourceCode.text).getD [])) =
      (r.entitlementCode.map fun c => toUnsignedLong c.code).getD 0 := by
    cases r.entitlementCode with
    | none => rfl
    | some c => exact c.reads
  unfold parseLinkNode
  rw [required_of (hattribute "rel" (some "resource".toList) (by simp)),
    required_of (hattribute "name" r.source (by simp)),
    required_of (hattribute "href" r.path (by simp)),
    hattribute "id" (r.entitlementCode.map SourceCode.text) (by simp), hattributes]
  simp only [require, Option.getD_some, if_true, ok_bind, hcode, bind_accept, accept_and]
  rfl

/-- What `ParseResourceNode` asks of a resource. -/
def SourceResource.xmlAccepts (r : SourceResource) : Bool :=
  present r.name && r.fields.all (fun f => !f.name.isEmpty) &&
  r.items.all (fun i => present i.ric && present i.topic && !i.sector.isEmpty) &&
  present r.source && present r.path

theorem parseResourceNode_element (r : SourceResource) (c : FullConfig) :
    parseResourceNode r.element c =
      if r.xmlAccepts then .ok { c with resources := c.resources ++ [r.loaded true] }
      else .error .rejected := by
  have hname : r.element.getAttribute "name" = r.name.getD [] :=
    getAttribute_of (by simp) (by simp)
  have hattributes : (r.element.hasAttributes && present r.name) = present r.name := by
    cases hname : r.name with
    | none => simp [present]
    | some name =>
      have htrue : r.element.hasAttributes = true := by
        unfold SourceResource.element attributesOf Element.hasAttributes Element.attributes
        simp [OrderedMap.present_cons, hname]
      rw [htrue, Bool.true_and]
  have hfields : r.element.getElementsByTagName "field" = r.fields.map SourceField.element := by
    rw [resource_elements]
    simp
  have hitems : r.element.getElementsByTagName "item" = r.items.map SourceItem.element := by
    rw [resource_elements]
    simp
  have hlinks : r.element.getElementsByTagName "link" = [r.link] := by
    rw [resource_elements]
    simp
  have hparseField := @parseAll_map SourceField (List (Text × Int)) r.element "field"
    (fun node fields => (parseFieldNode node).map (OrderedMap.emplace fields)) r.fields
    SourceField.element (fun f => !f.name.isEmpty)
    (fun fields f => OrderedMap.emplace fields (f.name, f.id)) hfields
    (fun f fields => by simp only [parseFieldNode_element, map_accept]) []
  have hparseItem := @parseAll_map SourceItem (List (Text × Text × Text)) r.element "item"
    (fun node items => (parseItemNode node).map (OrderedMap.emplace items)) r.items
    SourceItem.element (fun i => present i.ric && (present i.topic && !i.sector.isEmpty))
    (fun items i => OrderedMap.emplace items (i.sector, i.ric.getD [], i.topic.getD [])) hitems
    (fun i items => by simp only [parseItemNode_element, map_accept]) []
  unfold parseResourceNode
  rw [required_of hname, hparseField, hparseItem]
  simp only [require, parseAll_one hlinks, parseLinkNode_link, bind_accept, accept_and,
    ← Bool.and_assoc, hattributes, SourceResource.xmlAccepts, SourceResource.loaded, collect,
    OrderedMap.firsts, SourceResource.fieldEntries, SourceResource.itemEntries, List.foldl_map,
    if_true]

/-! ## The document -/

/-- What the XML loader asks of a configuration before `Validate`. -/
def SourceConfig.xmlAccepts (a : SourceConfig) : Bool :=
  present (a.setting .serviceName) && a.sessions.all SourceSession.xmlAccepts &&
  a.resources.all SourceResource.xmlAccepts

/-- An element that has only its name. -/
theorem leaf_attribute (tag name : String) (value : Option Text) :
    (leaf tag [(name, value)]).getAttribute name = value.getD [] :=
  getAttribute_of (by simp) (by simp)

theorem parseRfaNode_rfa (a : SourceConfig) {c : FullConfig} (hkey : c.key = [])
    (hdata : c.maximumDataSize = []) (hdacs : c.dacsId = []) (hmonitor : c.monitorName = [])
    (hqueue : c.eventQueueName = []) (hvendor : c.vendorName = []) :
    parseRfaNode a.rfa c =
      if present (a.setting .serviceName) && a.sessions.all SourceSession.xmlAccepts then
        .ok { c with
          key := a.text .key
          maximumDataSize := a.text .maximumDataSize
          serviceName := a.text .serviceName
          dacsId := a.text .dacsId
          sessions := c.sessions ++ a.sessions.map SourceSession.loaded
          monitorName := a.text .monitorName
          eventQueueName := a.text .eventQueueName
          vendorName := a.text .vendorName }
      else .error .rejected := by
  have hattribute : a.rfa.getAttribute "key" = a.text .key ∧
      a.rfa.getAttribute "maximumDataSize" = a.text .maximumDataSize :=
    ⟨getAttribute_of (by simp) (by simp), getAttribute_of (by simp) (by simp)⟩
  have hone : ∀ tag node, a.rfa.getElementsByTagName tag = [node] →
      ∀ (parse : Element → FullConfig → Except LoadFault FullConfig) c,
        a.rfa.parseAll tag parse c = parse node c := fun tag node h parse c => parseAll_one h c
  have hservice := hone "service" (leaf "service" [("name", a.setting .serviceName)]) (by
    rw [rfa_elements a (by simp)]
    simp)
  have hDACS := hone "DACS" (leaf "DACS" [("id", a.setting .dacsId)]) (by
    rw [rfa_elements a (by simp)]
    simp)
  have hmonitors := hone "monitor" (leaf "monitor" [("name", a.setting .monitorName)]) (by
    rw [rfa_elements a (by simp)]
    simp)
  have hqueues := hone "eventQueue" (leaf "eventQueue" [("name", a.setting .eventQueueName)]) (by
    rw [rfa_elements a (by simp)]
    simp)
  have hvendors := hone "vendor" (leaf "vendor" [("name", a.setting .vendorName)]) (by
    rw [rfa_elements a (by simp)]
    simp)
  have hsessions : a.rfa.getElementsByTagName "session" =
      a.sessions.map SourceSession.element := by
    rw [rfa_elements a (by simp)]
    simp
  have hparseSession := fun c => parseAll_map hsessions parseSessionNode_element c
  unfold parseRfaNode
  simp only [hservice, parseServiceNode, required_of (leaf_attribute ..), bind_accept, hDACS,
    parseDacsNode, ok_bind, hparseSession, hmonitors, parseMonitorNode, hqueues,
    parseEventQueueNode, hvendors, parseVendorNode, accept_and, foldl_sessions, hkey, hdata, hdacs,
    hmonitor, hqueue, hvendor, setting_nil, leaf_attribute, hattribute]
  rfl

theorem parsePsychNode_psych (a : SourceConfig) {c : FullConfig} (hsettings : ∀ f ∈ [
    c.interval, c.tolerableDelay, c.retryCount, c.retryDelayMs, c.retryTimeoutMs, c.timeoutMs,
    c.connectTimeoutMs, c.enableHttpPipelining, c.maximumResponseSize, c.minimumResponseSize,
    c.requestHttpEncoding, c.timeOffsetConstant, c.panicThreshold, c.httpProxy, c.dnsCacheTimeout,
    c.baseUrl], f = []) (hresources : c.resources = []) :
    parsePsychNode a.psych c =
      if a.resources.all SourceResource.xmlAccepts then
        .ok { c with
          interval := a.text .interval
          tolerableDelay := a.text .tolerableDelay
          retryCount := a.text .retryCount
          retryDelayMs := a.text .retryDelayMs
          retryTimeoutMs := a.text .retryTimeoutMs
          timeoutMs := a.text .timeoutMs
          connectTimeoutMs := a.text .connectTimeoutMs
          enableHttpPipelining := a.text .enableHttpPipelining
          maximumResponseSize := a.text .maximumResponseSize
          minimumResponseSize := a.text .minimumResponseSize
          requestHttpEncoding := a.text .requestHttpEncoding
          timeOffsetConstant := a.text .timeOffsetConstant
          panicThreshold := a.text .panicThreshold
          httpProxy := a.text .httpProxy
          dnsCacheTimeout := a.text .dnsCacheTimeout
          baseUrl := a.text .baseUrl
          resources := a.resources.map (SourceResource.loaded true) }
      else .error .rejected := by
  have hresource : a.psych.getElementsByTagName "resource" =
      a.resources.map SourceResource.element := by
    rw [psych_elements a (by simp)]
    simp
  have hattribute := psych_attribute a
  simp only [List.forall_mem_cons, List.not_mem_nil, false_implies, implies_true, and_true]
    at hsettings
  unfold parsePsychNode
  rw [parseAll_map hresource parseResourceNode_element]
  simp only [foldl_resources, hsettings, hresources, setting_nil, List.map_nil, List.nil_append,
    hattribute "interval" .interval (by simp [psychAttributes]),
    hattribute "tolerableDelay" .tolerableDelay (by simp [psychAttributes]),
    hattribute "retryCount" .retryCount (by simp [psychAttributes]),
    hattribute "retryDelayMs" .retryDelayMs (by simp [psychAttributes]),
    hattribute "retryTimeoutMs" .retryTimeoutMs (by simp [psychAttributes]),
    hattribute "timeoutMs" .timeoutMs (by simp [psychAttributes]),
    hattribute "connectTimeoutMs" .connectTimeoutMs (by simp [psychAttributes]),
    hattribute "enableHttpPipelining" .enableHttpPipelining (by simp [psychAttributes]),
    hattribute "maximumResponseSize" .maximumResponseSize (by simp [psychAttributes]),
    hattribute "minimumResponseSize" .minimumResponseSize (by simp [psychAttributes]),
    hattribute "requestHttpEncoding" .requestHttpEncoding (by simp [psychAttributes]),
    hattribute "timeOffsetConstant" .timeOffsetConstant (by simp [psychAttributes]),
    hattribute "panicThreshold" .panicThreshold (by simp [psychAttributes]),
    hattribute "httpProxy" .httpProxy (by simp [psychAttributes]),
    hattribute "dnsCacheTimeout" .dnsCacheTimeout (by simp [psychAttributes]),
    hattribute "href" .baseUrl (by simp [psychAttributes])]

theorem snmp_elements (name : String) (x : SourceAgentX) :
    x.element.getElementsByTagName name = if "agentX" = name then [x.agentX] else [] := by
  rw [SourceAgentX.element, getElementsByTagName_mk, SourceAgentX.agentX, named_leaf_cons, named_nil,
    List.append_nil]

theorem parseSnmpNode_element (x : SourceAgentX) {c : FullConfig} (hlog : c.snmpFilelog = [])
    (hsocket : c.agentxSocket = []) :
    parseSnmpNode x.element c =
      .ok { c with
        isSnmpEnabled := true
        isAgentxSubagent := x.subagent.getD c.isAgentxSubagent
        agentxSocket := x.socket.getD [] } := by
  have hsub : x.agentX.getAttribute "subagent" = (x.subagent.map boolText).getD [] :=
    getAttribute_of (by simp) (by simp)
  have hport : x.agentX.getAttribute "socket" = x.socket.getD [] :=
    getAttribute_of (by simp) (by simp)
  have hagentX : x.element.getElementsByTagName "agentX" = [x.agentX] := by
    rw [snmp_elements, if_pos rfl]
  have hfilelog : x.element.getAttribute "filelog" = [] := rfl
  unfold parseSnmpNode
  simp only [parseAll_one hagentX, parseAgentXNode, ok_bind, hlog, hsocket, setting_nil, hport, hsub,
    hfilelog]
  rcases x.subagent with _ | _ | _ <;> rfl

/-- The nodes of a configuration are not found below each other. -/
theorem config_elements (a : SourceConfig) {name : String}
    (h : name ∈ ["config", "Snmp", "Rfa", "psych"]) :
    a.config.getElementsByTagName name =
      (if "Snmp" = name then (a.snmp.map SourceAgentX.element).toList else []) ++
        ((if "Rfa" = name then [a.rfa] else []) ++ if "psych" = name then [a.psych] else []) := by
  have hrfa : a.rfa.getElementsByTagName name = [] := by
    simp only [List.mem_cons, List.not_mem_nil, or_false] at h
    rcases h with rfl | rfl | rfl | rfl <;> (rw [rfa_elements a (by simp)]; simp)
  have hpsych : a.psych.getElementsByTagName name = [] := by
    simp only [List.mem_cons, List.not_mem_nil, or_false] at h
    rcases h with rfl | rfl | rfl | rfl <;> (rw [psych_elements a (by simp)]; simp)
  have hsnmp : ∀ x : SourceAgentX, x.element.getElementsByTagName name = [] := by
    intro x
    simp only [List.mem_cons, List.not_mem_nil, or_false] at h
    rcases h with rfl | rfl | rfl | rfl <;> (rw [snmp_elements]; simp)
  have hsnmps : named name (a.snmp.map SourceAgentX.element).toList =
      if "Snmp" = name then (a.snmp.map SourceAgentX.element).toList else [] := by
    cases a.snmp with
    | none => simp
    | some x =>
      rw [Option.map_some, Option.toList_some, named_cons, hsnmp, named_nil, List.append_nil,
        List.append_nil]
      rfl
  unfold SourceConfig.config
  rw [getElementsByTagName_mk, named_append, hsnmps, named_cons, named_cons, hrfa, hpsych,
    named_nil, List.append_nil, List.append_nil, List.append_nil]
  rfl

/-- The XML loader accepts exactly what it asks for and what is valid. -/
theorem parseDomElement_element (a : SourceConfig) :
    parseDomElement a.element {} =
      if a.xmlAccepts && a.valid then .ok (a.loaded true) else .error .rejected := by
  have hconfig : a.element.getElementsByTagName "config" = [a.config] := by
    unfold SourceConfig.element
    rw [getElementsByTagName_mk, named_cons, config_elements a (by simp)]
    simp [SourceConfig.config, Element.tag]
  have hsnmp : a.config.parseAll "Snmp" parseSnmpNode {} = .ok { ({} : FullConfig) with
      isSnmpEnabled := a.snmp.isSome
      isAgentxSubagent := (a.snmp.bind SourceAgentX.subagent).getD true
      agentxSocket := (a.snmp.bind SourceAgentX.socket).getD [] } := by
    have hnodes : a.config.getElementsByTagName "Snmp" =
        (a.snmp.map SourceAgentX.element).toList := by
      rw [config_elements a (by simp)]
      simp
    cases hsome : a.snmp with
    | none =>
      rw [hsome] at hnodes
      rw [Element.parseAll, hnodes]
      rfl
    | some x =>
      rw [hsome] at hnodes
      rw [parseAll_one hnodes]
      exact parseSnmpNode_element x rfl rfl
  have hrfa : a.config.getElementsByTagName "Rfa" = [a.rfa] := by
    rw [config_elements a (by simp)]
    simp
  have hpsych : a.config.getElementsByTagName "psych" = [a.psych] := by
    rw [config_elements a (by simp)]
    simp
  unfold parseDomElement
  rw [parseAll_one hconfig]
  unfold parseConfigNode
  rw [hsnmp, ok_bind, parseAll_one hrfa, parseRfaNode_rfa a rfl rfl rfl rfl rfl rfl, bind_accept,
    parseAll_one hpsych, parsePsychNode_psych a (by simp) rfl, accept_and, bind_accept]
  change (if a.xmlAccepts then (if (a.loaded true).validate then Except.ok (a.loaded true)
    else Except.error LoadFault.rejected) else Except.error LoadFault.rejected) = _
  rw [validate_loaded, accept_and]

end Psych
