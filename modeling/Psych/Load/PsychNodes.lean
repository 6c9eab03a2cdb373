import Mathlib.Data.List.Forall2
import Psych.Library.Parts
import Psych.Load.Agreement

/-!
# Several `<psych>` nodes

`ParsePsychNode` is to reset all lists. It empties the columns and the sectors of the resources
that are there and keeps the resources, which `Validate` then rejects.

* `parseConfigs_splits`: what `<Snmp>` and `<Rfa>` set and what `<psych>` sets do not depend on
  each other.
* `parsePsychNode_spec`: a node adds a resource for each of its links.
* `last_replaces_iff`: so the last node replaces the ones before it exactly when none of those has
  a link.
-/

namespace Psych

open Parts

/-! ## Documents -/

/-- The `<psych>` nodes of a document, in the order they are parsed. -/
def Element.psychNodes (root : Element) : List Element :=
  (root.getElementsByTagName "config").flatMap fun node => node.getElementsByTagName "psych"

/-- The links of the resources of a `<psych>` node. -/
def Element.links (node : Element) : List Element :=
  (node.getElementsByTagName "resource").flatMap fun r => r.getElementsByTagName "link"

/-- The resources of a `<psych>` node. -/
def resourceList (node : Element) : Except LoadFault (List Resource) :=
  (parsePsychNode node {}).map fun c => c.resources

/-- Two `<config>` nodes that differ at most in their `<psych>` nodes. -/
structure SameRest (node node' : Element) : Prop where
  snmp : node.getElementsByTagName "Snmp" = node'.getElementsByTagName "Snmp"
  rfa : node.getElementsByTagName "Rfa" = node'.getElementsByTagName "Rfa"

/-- `alone` is the document `root` with `node` as its only `<psych>` node. -/
structure StandsAlone (root node alone : Element) : Prop where
  rest : List.Forall₂ SameRest (root.getElementsByTagName "config")
    (alone.getElementsByTagName "config")
  only : alone.psychNodes = [node]

/-- The document is accepted with the resources of `node`. -/
def AcceptedWith (root node : Element) : Prop :=
  ∃ c, parseDomElement root {} = .ok c ∧ resourceList node = .ok c.resources

def AcceptedAlone (root node : Element) : Prop :=
  ∃ alone, StandsAlone root node alone ∧ AcceptedWith alone node

/-! ## The two parts of a configuration -/

/-- What `<psych>` sets is that of `p`, and the rest that of `c`. -/
def FullConfig.withPsych (c p : FullConfig) : FullConfig := { p with
  serviceName := c.serviceName
  dacsId := c.dacsId
  sessions := c.sessions
  monitorName := c.monitorName
  eventQueueName := c.eventQueueName
  vendorName := c.vendorName
  maximumDataSize := c.maximumDataSize
  isSnmpEnabled := c.isSnmpEnabled
  isAgentxSubagent := c.isAgentxSubagent
  snmpFilelog := c.snmpFilelog
  agentxSocket := c.agentxSocket
  key := c.key }

/-- The checks of `Validate` that are not about `<psych>`. -/
def Config.restValid (config : Config) : Bool :=
  !config.serviceName.isEmpty && !config.sessions.isEmpty &&
  config.sessions.all SessionConfig.valid &&
  !config.monitorName.isEmpty && !config.eventQueueName.isEmpty && !config.vendorName.isEmpty &&
  positiveSize config.maximumDataSize

theorem validate_withPsych (c p : FullConfig) :
    (c.withPsych p).validate =
      (c.restValid && positiveSize p.maximumResponseSize && p.resources.all Resource.valid) := rfl

/-- A step that what `<psych>` sets has no part in. -/
def KeepsPsych (f : FullConfig → Except LoadFault FullConfig) : Prop :=
  ∀ p, Commutes (fun c => c.withPsych p) f

theorem KeepsPsych.bind {f g : FullConfig → Except LoadFault FullConfig} (hf : KeepsPsych f)
    (hg : KeepsPsych g) : KeepsPsych fun c => f c >>= g :=
  fun p => (hf p).bind (hg p)

theorem parseAll_commutes {parse : Element → FullConfig → Except LoadFault FullConfig}
    {u : FullConfig → FullConfig} (h : ∀ node, Commutes u (parse node)) (e : Element)
    (tag : String) : Commutes u (e.parseAll tag parse) :=
  Commutes.foldlM h (e.getElementsByTagName tag)

theorem parseAll_keepsPsych {parse : Element → FullConfig → Except LoadFault FullConfig}
    (h : ∀ node, KeepsPsych (parse node)) (e : Element) (tag : String) :
    KeepsPsych (e.parseAll tag parse) :=
  fun p => parseAll_commutes (fun node => h node p) e tag

theorem keepsPsych_ok {v : FullConfig → FullConfig}
    (h : ∀ c p, v (c.withPsych p) = (v c).withPsych p) : KeepsPsych fun c => .ok (v c) :=
  fun p => commutes_ok fun c => h c p

theorem keepsPsych_read {α : Type} {x : Except LoadFault α}
    {f : α → FullConfig → Except LoadFault FullConfig} (h : ∀ a, KeepsPsych (f a)) :
    KeepsPsych fun c => x >>= fun a => f a c :=
  fun p => commutes_read fun a => h a p

theorem parseSnmpNode_keepsPsych (e : Element) : KeepsPsych (parseSnmpNode e) := by
  have hfilelog : KeepsPsych fun c =>
      .ok { c with snmpFilelog := e.setting "filelog" c.snmpFilelog } :=
    keepsPsych_ok fun _ _ => rfl
  have hagentX : KeepsPsych (e.parseAll "agentX" parseAgentXNode) :=
    parseAll_keepsPsych (fun _ => keepsPsych_ok fun _ _ => rfl) e "agentX"
  have henabled : KeepsPsych fun c => .ok { c with isSnmpEnabled := true } :=
    keepsPsych_ok fun _ _ => rfl
  exact hfilelog.bind (hagentX.bind henabled)

theorem parseSessionNode_keepsPsych (e : Element) : KeepsPsych (parseSessionNode e) :=
  keepsPsych_read fun _ => keepsPsych_read fun _ => keepsPsych_read fun _ => keepsPsych_read fun _ =>
    keepsPsych_ok fun _ _ => rfl

theorem parseRfaNode_keepsPsych (e : Element) : KeepsPsych (parseRfaNode e) := by
  have hattributes : KeepsPsych fun c => .ok { c with
      key := e.setting "key" c.key
      maximumDataSize := e.setting "maximumDataSize" c.maximumDataSize } :=
    keepsPsych_ok fun _ _ => rfl
  have hservice : KeepsPsych (e.parseAll "service" parseServiceNode) :=
    parseAll_keepsPsych (fun _ => keepsPsych_read fun _ => keepsPsych_ok fun _ _ => rfl) e "service"
  have hdacs : KeepsPsych (e.parseAll "DACS" parseDacsNode) :=
    parseAll_keepsPsych (fun _ => keepsPsych_ok fun _ _ => rfl) e "DACS"
  have hsession : KeepsPsych (e.parseAll "session" parseSessionNode) :=
    parseAll_keepsPsych parseSessionNode_keepsPsych e "session"
  have hmonitor : KeepsPsych (e.parseAll "monitor" parseMonitorNode) :=
    parseAll_keepsPsych (fun _ => keepsPsych_ok fun _ _ => rfl) e "monitor"
  have heventQueue : KeepsPsych (e.parseAll "eventQueue" parseEventQueueNode) :=
    parseAll_keepsPsych (fun _ => keepsPsych_ok fun _ _ => rfl) e "eventQueue"
  have hvendor : KeepsPsych (e.parseAll "vendor" parseVendorNode) :=
    parseAll_keepsPsych (fun _ => keepsPsych_ok fun _ _ => rfl) e "vendor"
  exact hattributes.bind (hservice.bind (hdacs.bind (hsession.bind
    (hmonitor.bind (heventQueue.bind hvendor)))))

/-! ## A resource for each link -/

def FullConfig.addResources (c : FullConfig) (added : List Resource) : FullConfig :=
  { c with resources := c.resources ++ added }

theorem addResources_append (c : FullConfig) (added added' : List Resource) :
    (c.addResources added).addResources added' = c.addResources (added ++ added') := by
  unfold FullConfig.addResources
  rw [List.append_assoc]

/-- A step that adds a resource for each of some links to those that are there. -/
def AddsResources (links : List Element) (f : FullConfig → Except LoadFault FullConfig) : Prop :=
  ∃ new : Except LoadFault (List Resource),
    (∀ c, f c = new.map c.addResources) ∧ ∀ added, new = .ok added → added.length = links.length

theorem addsResources_nil : AddsResources [] fun c => .ok c := by
  refine ⟨.ok [], fun c => ?_, fun added h => ?_⟩
  · simp [Except.map, FullConfig.addResources]
  · cases h
    rfl

theorem addsResources_one (link : Element) (resource : Resource) :
    AddsResources [link] fun c => .ok (c.addResources [resource]) := by
  refine ⟨.ok [resource], fun _ => rfl, fun added h => ?_⟩
  cases h
  rfl

theorem AddsResources.bind {links links' : List Element}
    {f g : FullConfig → Except LoadFault FullConfig} (hf : AddsResources links f)
    (hg : AddsResources links' g) : AddsResources (links ++ links') fun c => f c >>= g := by
  obtain ⟨new, hnew, hlength⟩ := hf
  obtain ⟨new', hnew', hlength'⟩ := hg
  refine ⟨new >>= fun added => new'.map fun added' => added ++ added', fun c => ?_,
    fun added h => ?_⟩
  · change f c >>= g = _
    rw [hnew c]
    cases new with
    | error e => rfl
    | ok added =>
      change g _ = _
      rw [hnew']
      cases new' with
      | error e => rfl
      | ok added' => exact congrArg Except.ok (addResources_append c added added')
  · obtain ⟨first, hfirst, h⟩ := bind_eq_ok_iff.mp h
    obtain ⟨second, hsecond, rfl⟩ := map_eq_ok_iff.mp h
    rw [List.length_append, List.length_append, hlength first hfirst, hlength' second hsecond]

theorem addsResources_read {α : Type} {links : List Element} {x : Except LoadFault α}
    {f : α → FullConfig → Except LoadFault FullConfig} (h : ∀ a, AddsResources links (f a)) :
    AddsResources links fun c => x >>= fun a => f a c := by
  cases x with
  | error e => exact ⟨.error e, fun _ => rfl, fun added h => by cases h⟩
  | ok a => exact h a

theorem parseAll_addsResources {parse : Element → FullConfig → Except LoadFault FullConfig}
    {links : Element → List Element} (h : ∀ node, AddsResources (links node) (parse node))
    (e : Element) (tag : String) :
    AddsResources ((e.getElementsByTagName tag).flatMap links) (e.parseAll tag parse) := by
  unfold Element.parseAll
  induction e.getElementsByTagName tag with
  | nil => exact addsResources_nil
  | cons node l ih =>
    simp only [List.flatMap_cons, List.foldlM_cons]
    exact (h node).bind ih

theorem parseResourceNode_addsResources (e : Element) :
    AddsResources (e.getElementsByTagName "link") (parseResourceNode e) := by
  refine addsResources_read fun _ => addsResources_read fun _ => addsResources_read fun _ =>
    addsResources_read fun _ => ?_
  rw [← List.flatMap_singleton' (e.getElementsByTagName "link")]
  exact parseAll_addsResources
    (fun node => addsResources_read fun _ => addsResources_one node _) e "link"

theorem parseResources_addsResources (node : Element) :
    AddsResources node.links (node.parseAll "resource" parseResourceNode) :=
  parseAll_addsResources parseResourceNode_addsResources node "resource"

/-- A resource that was there before a `<psych>` node. -/
def Resource.emptied (r : Resource) : Resource := { r with fields := [], items := [] }

theorem valid_emptied (r : Resource) : r.emptied.valid = false := by
  simp [Resource.valid, Resource.emptied]

/-- What a `<psych>` node makes of a configuration, if it is accepted: the resources that are
there stay, and one is added for each link. -/
theorem parsePsychNode_spec {node : Element} {new : List Resource}
    (h : resourceList node = .ok new) :
    new.length = node.links.length ∧ ∀ c, ∃ c', parsePsychNode node c = .ok c' ∧
      c'.resources = c.resources.map Resource.emptied ++ new ∧
      c'.maximumResponseSize = node.setting "maximumResponseSize" c.maximumResponseSize := by
  obtain ⟨added, hadded, hlength⟩ := parseResources_addsResources node
  have hnew : added = .ok new := by
    unfold resourceList parsePsychNode at h
    rw [hadded] at h
    cases added with
    | error e => cases h
    | ok added =>
      cases h
      rfl
  refine ⟨hlength new hnew, fun c => ?_⟩
  unfold parsePsychNode
  rw [hadded, hnew]
  exact ⟨_, rfl, rfl, rfl⟩

theorem parsePsychNode_commutes (node : Element) (c : FullConfig) :
    Commutes (fun p => c.withPsych p) (parsePsychNode node) := by
  intro p
  obtain ⟨added, hadded, -⟩ := parseResources_addsResources node
  unfold parsePsychNode
  rw [hadded, hadded]
  cases added with
  | error e => rfl
  | ok added => rfl

/-! ## The document -/

/-- `ParseConfigNode` up to `<psych>`. -/
def parseRest (e : Element) (c : FullConfig) : Except LoadFault FullConfig := do
  let c ← e.parseAll "Snmp" parseSnmpNode c
  e.parseAll "Rfa" parseRfaNode c

def parsePsychNodes (nodes : List Element) (c : FullConfig) : Except LoadFault FullConfig :=
  nodes.foldlM (fun c node => parsePsychNode node c) c

theorem parseRest_keepsPsych (e : Element) : KeepsPsych (parseRest e) :=
  (parseAll_keepsPsych parseSnmpNode_keepsPsych e "Snmp").bind
    (parseAll_keepsPsych parseRfaNode_keepsPsych e "Rfa")

theorem parseConfigNode_splits (e : Element) :
    Splits FullConfig.withPsych (parseConfigNode e) (parseRest e)
      (e.parseAll "psych" parsePsychNode) := by
  have hnode : parseConfigNode e = fun c => parseRest e c >>= e.parseAll "psych" parsePsychNode := by
    funext c
    unfold parseConfigNode parseRest
    rw [bind_assoc]
  rw [hnode]
  exact splits_bind (fun c p => parseRest_keepsPsych e p c) fun c p =>
    parseAll_commutes (fun node => parsePsychNode_commutes node c) e "psych" p

theorem parseConfigs_splits (root : Element) :
    Splits FullConfig.withPsych (root.parseAll "config" parseConfigNode)
      (root.parseAll "config" parseRest) (parsePsychNodes root.psychNodes) := by
  have hpsych : parsePsychNodes root.psychNodes = fun p =>
      (root.getElementsByTagName "config").foldlM
        (fun p node => node.parseAll "psych" parsePsychNode p) p := by
    funext p
    exact foldlM_flatMap _ _ _ p
  rw [hpsych]
  exact Splits.foldlM parseConfigNode_splits (root.getElementsByTagName "config")

theorem parseDomElement_ok_iff {root : Element} {c : FullConfig} :
    parseDomElement root {} = .ok c ↔ ∃ rest p, root.parseAll "config" parseRest {} = .ok rest ∧
      parsePsychNodes root.psychNodes {} = .ok p ∧ rest.withPsych p = c ∧ c.validate = true := by
  have hsplits := parseConfigs_splits root {} {}
  unfold parseDomElement
  rw [bind_eq_ok_iff]
  constructor
  · rintro ⟨d, hd, h⟩
    obtain ⟨rest, p, hrest, hp, hjoin⟩ := (hsplits d).mp hd
    split at h
    · rename_i hvalid
      cases h
      exact ⟨rest, p, hrest, hp, hjoin, hvalid⟩
    · cases h
  · rintro ⟨rest, p, hrest, hp, hjoin, hvalid⟩
    refine ⟨c, (hsplits c).mpr ⟨rest, p, hrest, hp, hjoin⟩, ?_⟩
    rw [if_pos hvalid]

/-- `<config>` nodes that differ at most in their `<psych>` nodes set the same rest. -/
theorem parseRest_congr {nodes nodes' : List Element} (h : List.Forall₂ SameRest nodes nodes')
    (c : FullConfig) :
    nodes.foldlM (fun c node => parseRest node c) c =
      nodes'.foldlM (fun c node => parseRest node c) c := by
  induction h generalizing c with
  | nil => rfl
  | @cons node node' _ _ hsame _ ih =>
    have hrest : parseRest node c = parseRest node' c := by
      unfold parseRest Element.parseAll
      rw [hsame.snmp, hsame.rfa]
    rw [List.foldlM_cons, List.foldlM_cons, hrest]
    simp only [ih]

theorem acceptedAlone_spec {root node : Element} (h : AcceptedAlone root node) :
    ∃ rest new, root.parseAll "config" parseRest {} = .ok rest ∧ rest.restValid = true ∧
      resourceList node = .ok new ∧ new.all Resource.valid = true ∧
      positiveSize (node.getAttribute "maximumResponseSize") = true := by
  obtain ⟨alone, hstands, c, hc, hresources⟩ := h
  obtain ⟨rest, p, hrest, hp, rfl, hvalid⟩ := parseDomElement_ok_iff.mp hc
  rw [Element.parseAll, ← parseRest_congr hstands.rest] at hrest
  rw [hstands.only, parsePsychNodes, List.foldlM_cons] at hp
  obtain ⟨q, hq, hp⟩ := bind_eq_ok_iff.mp hp
  cases hp
  obtain ⟨-, hstep⟩ := parsePsychNode_spec hresources
  obtain ⟨p, hp, -, hsize⟩ := hstep {}
  rw [hq] at hp
  cases hp
  rw [setting_nil] at hsize
  rw [validate_withPsych, Bool.and_eq_true, Bool.and_eq_true, hsize] at hvalid
  obtain ⟨⟨hrestValid, hpositive⟩, hall⟩ := hvalid
  exact ⟨rest, _, hrest, hrestValid, hresources, hall, hpositive⟩

/-! ## The last node -/

/-- Nodes that are accepted leave no resource exactly when there was none and they have no link. -/
theorem parsePsychNodes_spec {nodes : List Element}
    (h : ∀ node ∈ nodes, ∃ new, resourceList node = .ok new) (c : FullConfig) :
    ∃ c', parsePsychNodes nodes c = .ok c' ∧
      (c'.resources = [] ↔ c.resources = [] ∧ ∀ node ∈ nodes, node.links = []) := by
  induction nodes generalizing c with
  | nil => exact ⟨c, rfl, by simp⟩
  | cons node nodes ih =>
    obtain ⟨new, hnew⟩ := h node List.mem_cons_self
    obtain ⟨hlength, hstep⟩ := parsePsychNode_spec hnew
    obtain ⟨d, hd, hresources, -⟩ := hstep c
    obtain ⟨c', hc', hiff⟩ := ih (fun node hmem => h node (List.mem_cons_of_mem _ hmem)) d
    have hlinks : new = [] ↔ node.links = [] := by
      rw [← List.length_eq_zero_iff, hlength, List.length_eq_zero_iff]
    refine ⟨c', ?_, ?_⟩
    · rw [parsePsychNodes, List.foldlM_cons, hd]
      exact hc'
    · rw [hiff, hresources, List.append_eq_nil_iff, List.map_eq_nil_iff, hlinks,
        List.forall_mem_cons, and_assoc]

theorem setting_of_present {e : Element} {name : String} (h : (e.getAttribute name).isEmpty = false)
    (old : Text) : e.setting name old = e.getAttribute name := by
  unfold Element.setting
  simp [h]

/-- The last `<psych>` node replaces the ones before it exactly when none of those has a link: the
resources of a link stay without columns and sectors. -/
theorem last_replaces_iff {root last : Element} {before : List Element}
    (hnodes : root.psychNodes = before ++ [last])
    (halone : ∀ node ∈ root.psychNodes, AcceptedAlone root node) :
    AcceptedWith root last ↔ ∀ node ∈ before, node.links = [] := by
  rw [hnodes] at halone
  obtain ⟨rest, new, hrest, hrestValid, hnew, hall, hpositive⟩ :=
    acceptedAlone_spec (halone last (List.mem_append_right _ List.mem_cons_self))
  obtain ⟨c, hc, hempty⟩ := @parsePsychNodes_spec before
    (fun node hmem => by
      obtain ⟨_, new, -, -, hnew, -, -⟩ :=
        acceptedAlone_spec (halone node (List.mem_append_left _ hmem))
      exact ⟨new, hnew⟩) {}
  obtain ⟨-, hstep⟩ := parsePsychNode_spec hnew
  obtain ⟨p, hp, hresources, hsize⟩ := hstep c
  have hrun : parsePsychNodes root.psychNodes {} = .ok p := by
    rw [hnodes, parsePsychNodes, List.foldlM_append]
    exact bind_eq_ok_iff.mpr ⟨c, hc, bind_eq_ok_iff.mpr ⟨p, hp, rfl⟩⟩
  have hnolinks : c.resources = [] ↔ ∀ node ∈ before, node.links = [] := by
    rw [hempty]
    exact and_iff_right rfl
  rw [← hnolinks]
  constructor
  · rintro ⟨d, hd, -⟩
    obtain ⟨rest', p', -, hp', rfl, hvalid⟩ := parseDomElement_ok_iff.mp hd
    rw [hrun] at hp'
    cases hp'
    rw [validate_withPsych, Bool.and_eq_true] at hvalid
    obtain ⟨-, hvalid⟩ := hvalid
    rw [hresources, List.all_append, Bool.and_eq_true] at hvalid
    -- `Validate` rejects what an earlier node left
    cases hold : c.resources with
    | nil => rfl
    | cons r l =>
      have hr := hvalid.1
      rw [hold, List.map_cons, List.all_cons, valid_emptied, Bool.false_and] at hr
      cases hr
  · intro hnone
    rw [hnone] at hresources
    refine ⟨rest.withPsych p, parseDomElement_ok_iff.mpr ⟨rest, p, hrest, hrun, rfl, ?_⟩, ?_⟩
    · have hpresent : (last.getAttribute "maximumResponseSize").isEmpty = false := by
        rw [positiveSize, Bool.and_eq_true] at hpositive
        simpa using hpositive.1
      rw [validate_withPsych, hrestValid, hsize, setting_of_present hpresent, hpositive, hresources]
      exact hall
    · exact hnew.trans (congrArg Except.ok hresources.symm)

/-! ## Two nodes with the same attributes -/

def feedConfig (paths : List String) : SourceConfig where
  setting := sampleSetting
  sessions := [sampleSourceSession]
  resources := paths.map fun path =>
    { sampleSourceResource with source := some "MPNEWS".toList, path := some path.toList }

/-- A `<psych>` node with a resource for each path. -/
def feedPsych (paths : List String) : Element := (feedConfig paths).psych

def psychDocument (nodes : List Element) : Element :=
  .mk "UserPlugin" [] [] [.mk "config" [] [] ((feedConfig []).rfa :: nodes)]

theorem feed_accepted {path : String} {c : Char} {rest : Text} (h : path.toList = c :: rest) :
    AcceptedWith (psychDocument [feedPsych [path]]) (feedPsych [path]) := by
  unfold feedPsych feedConfig
  rw [List.map_singleton, h]
  exact ⟨_, rfl, rfl⟩

/-- Two nodes with a resource each, both accepted alone, are rejected together. -/
theorem second_node_rejected :
    ¬ ∀ (root last : Element) (before : List Element), root.psychNodes = before ++ [last] →
      (∀ node ∈ root.psychNodes, AcceptedAlone root node) →
      (∀ node ∈ root.psychNodes, ∀ name, node.getAttribute name = last.getAttribute name) →
      AcceptedWith root last := by
  intro h
  let first := feedPsych ["/equities"]
  let last := feedPsych ["/bonds"]
  have hnodes : (psychDocument [first, last]).psychNodes = [first] ++ [last] := rfl
  have hfirst : AcceptedAlone (psychDocument [first, last]) first :=
    ⟨psychDocument [first], ⟨.cons ⟨rfl, rfl⟩ .nil, rfl⟩, feed_accepted rfl⟩
  have hlast : AcceptedAlone (psychDocument [first, last]) last :=
    ⟨psychDocument [last], ⟨.cons ⟨rfl, rfl⟩ .nil, rfl⟩, feed_accepted rfl⟩
  have hmem : ∀ node ∈ (psychDocument [first, last]).psychNodes, node = first ∨ node = last := by
    intro node hnode
    rw [hnodes] at hnode
    simpa using hnode
  have halone : ∀ node ∈ (psychDocument [first, last]).psychNodes,
      AcceptedAlone (psychDocument [first, last]) node := by
    intro node hnode
    rcases hmem node hnode with rfl | rfl
    · exact hfirst
    · exact hlast
  have hattributes : ∀ node ∈ (psychDocument [first, last]).psychNodes,
      ∀ name, node.getAttribute name = last.getAttribute name := by
    intro node hnode name
    rcases hmem node hnode with rfl | rfl
    · rfl
    · rfl
  have hrejected : parseDomElement (psychDocument [first, last]) {} = .error .rejected := rfl
  obtain ⟨c, hc, -⟩ := h _ last [first] hnodes halone hattributes
  rw [hrejected] at hc
  cases hc

/-- A node without resources is replaced. -/
theorem empty_node_replaced :
    AcceptedWith (psychDocument [feedPsych [], feedPsych ["/bonds"]]) (feedPsych ["/bonds"]) := by
  have halone : ∀ node ∈ (psychDocument [feedPsych [], feedPsych ["/bonds"]]).psychNodes,
      AcceptedAlone (psychDocument [feedPsych [], feedPsych ["/bonds"]]) node := by
    intro node hnode
    have hmem : node ∈ [feedPsych [], feedPsych ["/bonds"]] := hnode
    rcases List.mem_pair.mp hmem with rfl | rfl
    · exact ⟨psychDocument [feedPsych []], ⟨.cons ⟨rfl, rfl⟩ .nil, rfl⟩, _, rfl, rfl⟩
    · exact ⟨psychDocument [feedPsych ["/bonds"]], ⟨.cons ⟨rfl, rfl⟩ .nil, rfl⟩, feed_accepted rfl⟩
  refine (@last_replaces_iff _ _ [feedPsych []] rfl halone).mpr fun node hnode => ?_
  rw [List.mem_singleton.mp hnode]
  rfl

end Psych
