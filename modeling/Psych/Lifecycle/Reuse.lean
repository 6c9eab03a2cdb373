import Psych.Library.Parts
import Psych.Lifecycle.Instruments
import Psych.Load.Agreement

/-!
# Using an instance again

`Clear` is to reset the state of an instance so that it can be initialised again. It clears the
streams and the sector maps. It leaves the connections, and the loaders add the sessions and the
resources of a new configuration to those of the old one.

* `reload_sessions`: after a second load the sessions of the first come first.
* `reload_connections`: the connections of the first configuration are kept as they are.
* `reuse_never_restores`: so an instance that is used again is never like a fresh one.
-/

namespace Psych

open Emplace Parts

/-! ## Instances -/

/-- A configuration, as one of the loaders reads it. -/
inductive ConfigTree where
  | xml (root : Element)
  | json (d : Dictionary)

def ConfigTree.parse : ConfigTree → FullConfig → Except LoadFault FullConfig
  | .xml root => parseDomElement root
  | .json d => parseConfig d

/-- An instance, as far as `Init` sets up the published instruments. -/
structure Instance where
  config : FullConfig := {}
  instruments : Instruments := {}

/-- A successful `Init`: the provider is a new one. -/
def Instance.init (s : Instance) : Instance :=
  let instruments : Instruments := { s.instruments with streams := {} }
  { s with
    instruments := s.config.resources.foldl (addResource s.config.toConfig) instruments }

/-- The configuration is loaded, and `Init` succeeds. -/
def Instance.start (tree : ConfigTree) (s : Instance) : Except LoadFault Instance :=
  (tree.parse s.config).map fun config => Instance.init { s with config := config }

/-- `Clear`. -/
def Instance.clear (s : Instance) : Instance :=
  { s with instruments :=
      { s.instruments with streamVector := [], queryVector := [], streams := {} } }

/-- What polls leave of the connections. -/
def Instance.poll (f : Connection → Connection) (s : Instance) : Instance :=
  { s with instruments := { s.instruments with
      connections := s.instruments.connections.map fun e => (e.1, f e.2) } }

/-- The containers that a fresh instance has. -/
structure Restored (s fresh : Instance) : Prop where
  sessions : s.config.sessions = fresh.config.sessions
  resources : s.config.resources = fresh.config.resources
  connections : s.instruments.connections = fresh.instruments.connections
  streamVector : s.instruments.streamVector = fresh.instruments.streamVector
  queryVector : s.instruments.queryVector = fresh.instruments.queryVector

/-! ## Loaders add sessions -/

/-- The sessions that a step adds do not depend on those that are there. -/
def Appends (f : FullConfig → Except LoadFault FullConfig) : Prop :=
  ∃ new, ∀ {c c'}, f c = .ok c' → c'.sessions = c.sessions ++ new

theorem appends_of_same {f : FullConfig → Except LoadFault FullConfig}
    (h : ∀ {c c'}, f c = .ok c' → c'.sessions = c.sessions) : Appends f :=
  ⟨[], fun hc => (h hc).trans (List.append_nil _).symm⟩

theorem Appends.bind {f g : FullConfig → Except LoadFault FullConfig} (hf : Appends f)
    (hg : Appends g) : Appends fun c => f c >>= g := by
  obtain ⟨new, hnew⟩ := hf
  obtain ⟨new', hnew'⟩ := hg
  refine ⟨new ++ new', fun {c c'} h => ?_⟩
  obtain ⟨d, hd, hc'⟩ := bind_eq_ok_iff.mp h
  rw [hnew' hc', hnew hd, List.append_assoc]

theorem Appends.after {f : FullConfig → Except LoadFault FullConfig} (hf : Appends f)
    {u : FullConfig → FullConfig} (hu : ∀ c, (u c).sessions = c.sessions) :
    Appends fun c => f (u c) := by
  obtain ⟨new, hnew⟩ := hf
  exact ⟨new, fun {c c'} h => by rw [hnew h, hu]⟩

theorem appends_foldlM {α : Type} {parse : α → FullConfig → Except LoadFault FullConfig}
    (h : ∀ x, Appends (parse x)) (l : List α) :
    Appends fun c => l.foldlM (fun c x => parse x c) c := by
  induction l with
  | nil =>
    refine appends_of_same fun {c c'} hc => ?_
    cases hc
    rfl
  | cons x l ih =>
    simp only [List.foldlM_cons]
    exact (h x).bind ih

theorem appends_parseAll {parse : Element → FullConfig → Except LoadFault FullConfig}
    (h : ∀ node, Appends (parse node)) (e : Element) (tag : String) :
    Appends (e.parseAll tag parse) :=
  appends_foldlM h (e.getElementsByTagName tag)

/-- A step that reads something and then adds it. -/
theorem appends_read {α : Type} {x : Except LoadFault α}
    {f : α → FullConfig → Except LoadFault FullConfig} (h : ∀ a, Appends (f a)) :
    Appends fun c => x >>= fun a => f a c := by
  cases x with
  | error e => exact appends_of_same fun hc => by cases hc
  | ok a => exact h a

theorem appends_ok {f : FullConfig → Except LoadFault FullConfig} {u : FullConfig → FullConfig}
    (hf : ∀ c, f c = .ok (u c)) (hu : ∀ c, (u c).sessions = c.sessions) : Appends f := by
  refine appends_of_same fun {c c'} hc => ?_
  rw [hf] at hc
  cases hc
  exact hu c

theorem appends_session (session : SessionConfig) :
    Appends fun c => .ok { c with sessions := c.sessions ++ [session] } := by
  refine ⟨[session], fun {c c'} hc => ?_⟩
  cases hc
  rfl

theorem appends_validate :
    Appends fun c => if c.validate then .ok c else .error .rejected := by
  refine appends_of_same fun {c c'} hc => ?_
  split at hc
  · cases hc
    rfl
  · cases hc

/-! ## The XML loader -/

theorem parseAgentXNode_appends (e : Element) : Appends (parseAgentXNode e) :=
  appends_ok (fun _ => rfl) fun _ => rfl

theorem parseSnmpNode_appends (e : Element) : Appends (parseSnmpNode e) := by
  have hagentX := appends_parseAll parseAgentXNode_appends e "agentX"
  exact (hagentX.after (u := fun c => { c with snmpFilelog := e.setting "filelog" c.snmpFilelog })
    fun _ => rfl).bind (appends_ok (fun _ => rfl) fun _ => rfl)

theorem parseServiceNode_appends (e : Element) : Appends (parseServiceNode e) :=
  appends_read fun _ => appends_ok (fun _ => rfl) fun _ => rfl

theorem parseDacsNode_appends (e : Element) : Appends (parseDacsNode e) :=
  appends_ok (fun _ => rfl) fun _ => rfl

theorem parseMonitorNode_appends (e : Element) : Appends (parseMonitorNode e) :=
  appends_ok (fun _ => rfl) fun _ => rfl

theorem parseEventQueueNode_appends (e : Element) : Appends (parseEventQueueNode e) :=
  appends_ok (fun _ => rfl) fun _ => rfl

theorem parseVendorNode_appends (e : Element) : Appends (parseVendorNode e) :=
  appends_ok (fun _ => rfl) fun _ => rfl

theorem parseSessionNode_appends (e : Element) : Appends (parseSessionNode e) :=
  appends_read fun _ => appends_read fun _ => appends_read fun _ => appends_read fun session =>
    appends_session session

theorem parseRfaNode_appends (e : Element) : Appends (parseRfaNode e) := by
  have hnodes := (appends_parseAll parseServiceNode_appends e "service").bind <|
    (appends_parseAll parseDacsNode_appends e "DACS").bind <|
    (appends_parseAll parseSessionNode_appends e "session").bind <|
    (appends_parseAll parseMonitorNode_appends e "monitor").bind <|
    (appends_parseAll parseEventQueueNode_appends e "eventQueue").bind <|
    appends_parseAll parseVendorNode_appends e "vendor"
  exact hnodes.after (u := fun c => { c with
    key := e.setting "key" c.key
    maximumDataSize := e.setting "maximumDataSize" c.maximumDataSize }) fun _ => rfl

theorem parseResourceNode_appends (e : Element) : Appends (parseResourceNode e) := by
  refine appends_read fun _ => appends_read fun _ => appends_read fun _ => appends_read fun _ => ?_
  refine appends_parseAll (fun node => ?_) e "link"
  exact appends_read fun _ => appends_ok (fun _ => rfl) fun _ => rfl

theorem parsePsychNode_appends (e : Element) : Appends (parsePsychNode e) := by
  obtain ⟨new, hnew⟩ := appends_parseAll parseResourceNode_appends e "resource"
  refine ⟨new, fun h => ?_⟩
  have hsessions := hnew h
  exact hsessions

theorem parseDomElement_appends (root : Element) : Appends (parseDomElement root) := by
  have hconfig : ∀ e, Appends (parseConfigNode e) := fun e =>
    (appends_parseAll parseSnmpNode_appends e "Snmp").bind
      ((appends_parseAll parseRfaNode_appends e "Rfa").bind
        (appends_parseAll parsePsychNode_appends e "psych"))
  exact (appends_parseAll hconfig root "config").bind appends_validate

/-! ## The JSON loader -/

theorem parseSession_appends (d : Dictionary) : Appends (parseSession d) :=
  appends_read fun _ => appends_session _

theorem parseResource_appends (d : Dictionary) : Appends (parseResource d) :=
  appends_read fun _ => appends_read fun _ => appends_read fun _ =>
    appends_ok (fun _ => rfl) fun _ => rfl

theorem parseDictionaries_appends {parse : Dictionary → FullConfig → Except LoadFault FullConfig}
    (h : ∀ d, Appends (parse d)) (list : List JsonValue) :
    Appends (parseDictionaries parse list) :=
  appends_foldlM (fun _ => appends_read h) list

theorem parseConfig_appends (d : Dictionary) : Appends (parseConfig d) := by
  cases hsessions : (d.get "sessions").bind JsonValue.asList with
  | none =>
    refine appends_of_same fun {c c'} h => ?_
    obtain ⟨_, _, h⟩ := bind_eq_ok_iff.mp h
    obtain ⟨_, _, h⟩ := bind_eq_ok_iff.mp h
    obtain ⟨_, hlist, _⟩ := bind_eq_ok_iff.mp h
    rw [hsessions] at hlist
    cases hlist
  | some sessions =>
    obtain ⟨new, hnew⟩ := parseDictionaries_appends parseSession_appends sessions
    obtain ⟨new', hnew'⟩ := parseDictionaries_appends parseResource_appends
      (((d.get "resources").bind JsonValue.asList).getD sessions)
    refine ⟨new ++ new', fun {c c'} h => ?_⟩
    obtain ⟨_, _, h⟩ := bind_eq_ok_iff.mp h
    obtain ⟨_, _, h⟩ := bind_eq_ok_iff.mp h
    obtain ⟨_, hlist, h⟩ := bind_eq_ok_iff.mp h
    rw [hsessions] at hlist
    cases hlist
    obtain ⟨c₁, h₁, h⟩ := bind_eq_ok_iff.mp h
    obtain ⟨c₂, h₂, h⟩ := bind_eq_ok_iff.mp h
    have hfirst := hnew h₁
    have hsecond := hnew' h₂
    have hlast : c'.sessions = c₂.sessions := by
      split at h
      · cases h
        rfl
      · cases h
    rw [hlast, hsecond]
    change c₁.sessions ++ new' = _
    rw [hfirst, List.append_assoc]

/-! ## A second start -/

theorem parse_appends (tree : ConfigTree) : Appends tree.parse := by
  cases tree with
  | xml root => exact parseDomElement_appends root
  | json d => exact parseConfig_appends d

theorem sessions_of_accepted {c c' : FullConfig}
    (h : (if c.validate then Except.ok c else Except.error LoadFault.rejected) = .ok c') :
    c'.sessions ≠ [] := by
  split at h
  · rename_i hvalid
    cases h
    intro hnil
    unfold Config.validate at hvalid
    rw [hnil] at hvalid
    simp at hvalid
  · cases h

/-- An accepted configuration has a session. -/
theorem parse_sessions {tree : ConfigTree} {c c' : FullConfig} (h : tree.parse c = .ok c') :
    c'.sessions ≠ [] := by
  cases tree with
  | xml root =>
    obtain ⟨_, _, h⟩ := bind_eq_ok_iff.mp h
    exact sessions_of_accepted h
  | json d =>
    obtain ⟨_, _, h⟩ := bind_eq_ok_iff.mp h
    obtain ⟨_, _, h⟩ := bind_eq_ok_iff.mp h
    obtain ⟨_, _, h⟩ := bind_eq_ok_iff.mp h
    obtain ⟨_, _, h⟩ := bind_eq_ok_iff.mp h
    obtain ⟨_, _, h⟩ := bind_eq_ok_iff.mp h
    exact sessions_of_accepted h

theorem start_eq_ok {tree : ConfigTree} {s t : Instance} (h : s.start tree = .ok t) :
    ∃ config, tree.parse s.config = .ok config ∧ t = Instance.init { s with config := config } := by
  obtain ⟨config, hparse, rfl⟩ := map_eq_ok_iff.mp h
  exact ⟨config, hparse, rfl⟩

/-- `Init` keeps the connection a path has. -/
theorem init_connections (s : Instance) {path : Text} {connection : Connection}
    (h : s.instruments.connections.lookup path = some connection) :
    s.init.instruments.connections.lookup path = some connection := by
  obtain ⟨_, _, hconnections, _⟩ := addResources_spec s.config.toConfig s.config.resources
    { s.instruments with streams := {} }
  have hinit : s.init.instruments.connections = _ := hconnections
  rw [hinit, lookup_emplaceAll, h, Option.some_or]

section Again

variable {tree₁ tree₂ : ConfigTree} {s₁ s₂ : Instance} (f : Connection → Connection)

/-- After a second load the sessions of the first configuration come first. -/
theorem reload_sessions (h₁ : ({} : Instance).start tree₁ = .ok s₁)
    (h₂ : ({} : Instance).start tree₂ = .ok s₂) {s : Instance}
    (h : (s₁.poll f).clear.start tree₂ = .ok s) :
    s.config.sessions = s₁.config.sessions ++ s₂.config.sessions := by
  obtain ⟨c₁, _, rfl⟩ := start_eq_ok h₁
  obtain ⟨c₂, hfresh, rfl⟩ := start_eq_ok h₂
  obtain ⟨c, hagain, rfl⟩ := start_eq_ok h
  obtain ⟨new, hnew⟩ := parse_appends tree₂
  have hsecond : c₂.sessions = new := hnew hfresh
  have hsessions : c.sessions = c₁.sessions ++ new := hnew hagain
  exact hsessions.trans (congrArg _ hsecond.symm)

/-- The connections of the first configuration are kept, with what the polls left in them. -/
theorem reload_connections {s : Instance} (h : (s₁.poll f).clear.start tree₂ = .ok s) {path : Text}
    {connection : Connection} (hpath : s₁.instruments.connections.lookup path = some connection) :
    s.instruments.connections.lookup path = some (f connection) := by
  obtain ⟨c, _, rfl⟩ := start_eq_ok h
  apply init_connections _
  change (s₁.instruments.connections.map fun e => (e.1, f e.2)).lookup path = _
  rw [lookup_map_values, hpath]
  rfl

/-- Whatever the two configurations are, and whatever is polled in between, an instance that is
cleared and started again is not like a fresh one. -/
theorem reuse_never_restores (h₁ : ({} : Instance).start tree₁ = .ok s₁)
    (h₂ : ({} : Instance).start tree₂ = .ok s₂) :
    ¬ ∃ s, (s₁.poll f).clear.start tree₂ = .ok s ∧ Restored s s₂ := by
  rintro ⟨s, h, hrestored⟩
  have hsessions := reload_sessions f h₁ h₂ h
  obtain ⟨c₁, hfirst, rfl⟩ := start_eq_ok h₁
  rw [hrestored.sessions] at hsessions
  have hnil := List.self_eq_append_left.mp hsessions
  exact parse_sessions hfirst hnil

end Again

/-! ## The same configuration again -/

def sourcelessInstance : Instance := Instance.init { config := sourceless.loaded false }

theorem sourceless_start :
    ({} : Instance).start (.json sourceless.dictionary) = .ok sourcelessInstance := by
  have hparse : (ConfigTree.json sourceless.dictionary).parse ({} : Instance).config =
      .ok (sourceless.loaded false) :=
    (parseConfig_dictionary sourceless).trans (if_pos (by decide))
  unfold Instance.start
  rw [hparse]
  rfl

theorem second_start_differs :
    ¬ ∃ s, (sourcelessInstance.poll id).clear.start (.json sourceless.dictionary) = .ok s ∧
      Restored s sourcelessInstance :=
  reuse_never_restores id sourceless_start sourceless_start

/-- The second load succeeds, and leaves two sessions where there is one in the configuration. -/
theorem second_start_doubles :
    ∃ s, (sourcelessInstance.poll id).clear.start (.json sourceless.dictionary) = .ok s ∧
      s.config.sessions.length = 2 ∧ ¬ Restored s sourcelessInstance := by
  have hlength : ((sourcelessInstance.poll id).clear.start (.json sourceless.dictionary)).map
      (fun s => s.config.sessions.length) = .ok 2 := rfl
  cases hstart : (sourcelessInstance.poll id).clear.start (.json sourceless.dictionary) with
  | error e =>
    rw [hstart] at hlength
    cases hlength
  | ok s =>
    rw [hstart] at hlength
    have htwo : s.config.sessions.length = 2 := Except.ok.inj hlength
    refine ⟨s, rfl, htwo, fun h => ?_⟩
    have hone : sourcelessInstance.config.sessions.length = 1 := rfl
    rw [h.sessions, hone] at htwo
    cases htwo

end Psych
