import Psych.Load.Source

/-!
# What the JSON loader makes of a configuration

`parseConfig_dictionary`: the dictionary of a configuration is accepted exactly when `Validate`
accepts it, and every map keeps the last value of a name.
-/

namespace Psych

/-! ## Members -/

/-- Where no key comes twice, a dictionary has what is written down. -/
theorem get_of {members : List (String × Option JsonValue)} {key : String} {value : Option JsonValue}
    (hnodup : (members.map Prod.fst).Nodup) (hmem : (key, value) ∈ members) :
    (Dictionary.of members).get key = value := by
  have hkeys : ((members.map fun m => (m.1.toList, m.2)).map Prod.fst).Nodup := by
    rw [List.map_map]
    have heq : (Prod.fst ∘ fun m : String × Option JsonValue => (m.1.toList, m.2)) =
        String.toList ∘ Prod.fst := rfl
    rw [heq, ← List.map_map]
    exact hnodup.map fun s t h => String.toList_inj.mp h
  unfold Dictionary.get Dictionary.of Dictionary.ofMembers membersOf
  rw [OrderedMap.lookup_lasts]
  exact OrderedMap.lookup_present_reverse hkeys (List.mem_map.mpr ⟨(key, value), hmem, rfl⟩)

theorem getString_of {members : List (String × Option JsonValue)} {key : String} {text : Option Text}
    (hnodup : (members.map Prod.fst).Nodup) (hmem : (key, text.map .string) ∈ members)
    (old : Text) : (Dictionary.of members).getString key old = text.getD old := by
  unfold Dictionary.getString
  rw [get_of hnodup hmem]
  cases text <;> rfl

/-! ## Sessions -/

theorem map_asString (texts : List Text) :
    (texts.map JsonValue.string).map (fun value => value.asString.getD []) = texts := by
  rw [List.map_map]
  exact List.map_id texts

theorem session_text (s : SourceSession) (key : String) (text : Option Text)
    (h : (key, text.map .string) ∈ s.members) : s.dictionary.getString key [] = text.getD [] :=
  getString_of (by simp [SourceSession.members]) h []

theorem parseSession_dictionary (s : SourceSession) (c : FullConfig) :
    parseSession s.dictionary c = .ok { c with sessions := c.sessions ++ [s.loaded] } := by
  have hservers : s.dictionary.get "rssl_servers" =
      some (.list (s.rsslServers.map .string)) :=
    get_of (by simp [SourceSession.members]) (by simp [SourceSession.members])
  have htext := session_text s
  unfold parseSession
  rw [hservers, Option.bind_some, JsonValue.asList, used, ok_bind, map_asString,
    htext "session_name" s.sessionName (by simp [SourceSession.members]),
    htext "connection_name" s.connectionName (by simp [SourceSession.members]),
    htext "publisher_name" s.publisherName (by simp [SourceSession.members]),
    htext "rssl_default_port" s.rsslDefaultPort (by simp [SourceSession.members]),
    htext "application_id" s.applicationId (by simp [SourceSession.members]),
    htext "instance_id" s.instanceId (by simp [SourceSession.members]),
    htext "user_name" s.userName (by simp [SourceSession.members]),
    htext "position" s.position (by simp [SourceSession.members])]
  rfl

/-! ## Resources -/

theorem foldlM_map_ok {α β σ : Type} {f : σ → α → Except LoadFault σ} {g : β → α} {push : σ → β → σ}
    (h : ∀ s x, f s (g x) = .ok (push s x)) (l : List β) (s : σ) :
    (l.map g).foldlM f s = .ok (l.foldl push s) := by
  induction l generalizing s with
  | nil => rfl
  | cons x l ih =>
    rw [List.map_cons, List.foldlM_cons, h, ok_bind, List.foldl_cons]
    exact ih (push s x)

/-- The loop over a dictionary whose values are of one kind: the map has the last value of every
key. -/
theorem foldlM_entries {α ν : Type} {parse : List (Text × ν) → Text × JsonValue →
    Except LoadFault (List (Text × ν))} {g : α → JsonValue} {f : α → ν}
    (h : ∀ m key x, parse m (key, g x) = .ok (OrderedMap.emplace m (key, f x)))
    (l : List (Text × α)) :
    (Dictionary.ofMembers (OrderedMap.mapValues g l)).foldlM parse [] =
      .ok (OrderedMap.lasts (OrderedMap.mapValues f l)) := by
  unfold Dictionary.ofMembers
  have hfirsts := OrderedMap.firsts_of_sorted
    (OrderedMap.sorted_lasts (OrderedMap.mapValues f l))
  rw [OrderedMap.lasts_mapValues, OrderedMap.mapValues, foldlM_map_ok fun m e => h m e.1 e.2,
    ← hfirsts, OrderedMap.firsts, OrderedMap.lasts_mapValues, OrderedMap.mapValues,
    List.foldl_map]

/-- The loop over a dictionary of integers. -/
theorem foldl_parseField (l : List (Text × Int)) (integerValue : Int) :
    ((Dictionary.ofMembers (OrderedMap.mapValues .integer l)).foldl parseField
      ([], integerValue)).1 = OrderedMap.lasts l := by
  have hloop : ∀ (l : List (Text × Int)) (s : List (Text × Int) × Int),
      ((OrderedMap.mapValues JsonValue.integer l).foldl parseField s).1 =
        l.foldl OrderedMap.emplace s.1 := by
    intro l
    induction l with
    | nil => exact fun s => rfl
    | cons e l ih => exact fun s => ih (parseField s (e.1, .integer e.2))
  rw [Dictionary.ofMembers, OrderedMap.lasts_mapValues, hloop]
  exact OrderedMap.firsts_of_sorted (OrderedMap.sorted_lasts l)

theorem parseItem_dictionary (m : List (Text × Text × Text)) (key : Text) (i : SourceItem) :
    parseItem m (key, .dictionary i.dictionary) =
      .ok (OrderedMap.emplace m (key, i.ric.getD [], i.topic.getD [])) := by
  have hric : i.dictionary.getString "RIC" [] = i.ric.getD [] :=
    getString_of (by simp) (by simp) []
  have htopic : i.dictionary.getString "topic" [] = i.topic.getD [] :=
    getString_of (by simp) (by simp) []
  unfold parseItem
  rw [JsonValue.asDictionary, used, ok_bind, hric, htopic]

theorem resource_member (r : SourceResource) (key : String) (value : Option JsonValue)
    (h : (key, value) ∈ r.members) : r.dictionary.get key = value :=
  get_of (by simp [SourceResource.members]) h

theorem resource_text (r : SourceResource) (key : String) (text : Option Text)
    (h : (key, text.map .string) ∈ r.members) : r.dictionary.getString key [] = text.getD [] :=
  getString_of (by simp [SourceResource.members]) h []

theorem parseResource_dictionary (r : SourceResource) (c : FullConfig) :
    parseResource r.dictionary c =
      .ok { c with resources := c.resources ++ [r.loaded false] } := by
  have hfields : r.dictionary.get "fields" = some (.dictionary (Dictionary.ofMembers
      (r.fields.map fun f => (f.name, .integer f.id)))) :=
    resource_member r "fields" _ (by simp [SourceResource.members])
  have hitems : r.dictionary.get "items" = some (.dictionary (Dictionary.ofMembers
      (r.items.map fun i => (i.sector, .dictionary i.dictionary)))) :=
    resource_member r "items" _ (by simp [SourceResource.members])
  have hparseField := foldl_parseField r.fieldEntries
  have hparseItem := foldlM_entries (g := fun i : SourceItem => .dictionary i.dictionary)
    parseItem_dictionary (r.items.map fun i => (i.sector, i))
  have hcode : r.dictionary.getInteger "entitlement_code" 0 =
      (r.entitlementCode.map SourceCode.code).getD 0 := by
    unfold Dictionary.getInteger
    rw [resource_member r "entitlement_code" (r.entitlementCode.map fun c => .integer c.code)
      (by simp [SourceResource.members])]
    cases r.entitlementCode <;> rfl
  have htext := resource_text r
  simp only [OrderedMap.mapValues, SourceResource.fieldEntries, List.map_map, Function.comp_def]
    at hparseField hparseItem
  unfold parseResource
  simp only [hfields, hitems, Option.bind_some, Option.getD_some, JsonValue.asDictionary, used,
    ok_bind, hparseField, hparseItem, hcode, htext "name" r.name (by simp [SourceResource.members]),
    htext "source" r.source (by simp [SourceResource.members]),
    htext "path" r.path (by simp [SourceResource.members])]
  have hloaded : toUnsignedLong ((r.entitlementCode.map SourceCode.code).getD 0) =
      (r.entitlementCode.map fun c => toUnsignedLong c.code).getD 0 := by
    cases r.entitlementCode <;> rfl
  rw [hloaded]
  rfl

/-! ## The document -/

theorem parseDictionaries_map {α : Type} {parse : Dictionary → FullConfig →
    Except LoadFault FullConfig} {f : α → Dictionary} {push : FullConfig → α → FullConfig}
    (h : ∀ x c, parse (f x) c = .ok (push c x)) (l : List α) (c : FullConfig) :
    parseDictionaries parse (l.map fun x => .dictionary (f x)) c = .ok (l.foldl push c) := by
  unfold parseDictionaries
  exact foldlM_map_ok (fun c x => h x c) l c

theorem config_keys (a : SourceConfig) : (a.members.map Prod.fst).Nodup := by
  simp [SourceConfig.members, textMembers]

theorem config_get (a : SourceConfig) (key : String) (value : Option JsonValue)
    (h : (key, value) ∈ a.members) : a.dictionary.get key = value :=
  get_of (config_keys a) h

theorem config_member (a : SourceConfig) (key : String) (setting : Setting)
    (h : (key, setting) ∈ textMembers) :
    (key, (a.setting setting).map .string) ∈ a.members := by
  unfold SourceConfig.members
  simp only [List.mem_cons]
  exact Or.inr (Or.inr (Or.inr (Or.inr (Or.inr (List.mem_map.mpr ⟨_, h, rfl⟩)))))

theorem config_text (a : SourceConfig) (key : String) (setting : Setting)
    (h : (key, setting) ∈ textMembers) : a.dictionary.getString key [] = a.text setting :=
  getString_of (config_keys a) (config_member a key setting h) []

/-- Where `Validate` accepts the configuration, the JSON loader does. -/
theorem parseConfig_dictionary (a : SourceConfig) :
    parseConfig a.dictionary {} =
      if a.valid then .ok (a.loaded false) else .error .rejected := by
  have hsessions := config_get a "sessions"
    (some (.list (a.sessions.map fun s => .dictionary s.dictionary)))
    (by simp [SourceConfig.members])
  have hresources := config_get a "resources"
    (some (.list (a.resources.map fun r => .dictionary r.dictionary)))
    (by simp [SourceConfig.members])
  have henabled := config_get a "is_snmp_enabled" (some (.boolean a.snmp.isSome))
    (by simp [SourceConfig.members])
  have hsubagent := config_get a "is_agentx_subagent"
    (a.snmp.bind fun x => x.subagent.map .boolean) (by simp [SourceConfig.members])
  have hport := config_get a "agentx_socket"
    (a.snmp.bind fun x => x.socket.map .string) (by simp [SourceConfig.members])
  have hsnmp : a.dictionary.getBoolean "is_snmp_enabled" false = a.snmp.isSome := by
    unfold Dictionary.getBoolean
    rw [henabled]
    rfl
  have hagentx : a.dictionary.getBoolean "is_agentx_subagent" true =
      (a.snmp.bind SourceAgentX.subagent).getD true := by
    unfold Dictionary.getBoolean
    rw [hsubagent]
    rcases a.snmp with _ | ⟨_ | _, _⟩ <;> rfl
  have hsocket : a.dictionary.getString "agentx_socket" [] =
      (a.snmp.bind SourceAgentX.socket).getD [] := by
    unfold Dictionary.getString
    rw [hport]
    rcases a.snmp with _ | ⟨_, _ | _⟩ <;> rfl
  have htext := config_text a
  unfold parseConfig
  simp only [hsessions, hresources, hsnmp, hagentx, hsocket, require, Option.isSome_some, if_true,
    ok_bind, Option.bind_some, Option.getD_some, JsonValue.asList, used,
    parseDictionaries_map parseSession_dictionary, parseDictionaries_map parseResource_dictionary,
    foldl_sessions, foldl_resources,
    htext "key" .key (by simp [textMembers]),
    htext "service_name" .serviceName (by simp [textMembers]),
    htext "dacs_id" .dacsId (by simp [textMembers]),
    htext "monitor_name" .monitorName (by simp [textMembers]),
    htext "event_queue_name" .eventQueueName (by simp [textMembers]),
    htext "vendor_name" .vendorName (by simp [textMembers]),
    htext "maximum_data_size" .maximumDataSize (by simp [textMembers]),
    htext "interval" .interval (by simp [textMembers]),
    htext "tolerable_delay" .tolerableDelay (by simp [textMembers]),
    htext "retry_count" .retryCount (by simp [textMembers]),
    htext "retry_delay_ms" .retryDelayMs (by simp [textMembers]),
    htext "retry_timeout_ms" .retryTimeoutMs (by simp [textMembers]),
    htext "timeout_ms" .timeoutMs (by simp [textMembers]),
    htext "connect_timeout_ms" .connectTimeoutMs (by simp [textMembers]),
    htext "enable_http_pipelining" .enableHttpPipelining (by simp [textMembers]),
    htext "maximum_response_size" .maximumResponseSize (by simp [textMembers]),
    htext "minimum_response_size" .minimumResponseSize (by simp [textMembers]),
    htext "request_http_encoding" .requestHttpEncoding (by simp [textMembers]),
    htext "time_offset_constant" .timeOffsetConstant (by simp [textMembers]),
    htext "panic_threshold" .panicThreshold (by simp [textMembers]),
    htext "http_proxy" .httpProxy (by simp [textMembers]),
    htext "dns_cache_timeout" .dnsCacheTimeout (by simp [textMembers]),
    htext "base_url" .baseUrl (by simp [textMembers])]
  change (if (a.loaded false).validate then Except.ok (a.loaded false)
    else Except.error LoadFault.rejected) = _
  rw [validate_loaded]

end Psych
