import Psych.Load.JsonSource
import Psych.Load.XmlSource

/-!
# The two loaders

The XML loader looks at every name, and the JSON loader only at those of `Validate`: an empty
server, source, field, sector, RIC or topic is accepted in JSON alone. Of several entries of one
name the XML loader keeps the first, and the reader of JSON the last. `loaders_agree_iff`: the
loaders agree on the other configurations and on no more.
-/

namespace Psych

/-- One loader accepts if and only if the other does, and what both accept is loaded alike. -/
structure LoadersAgree (x y : Except LoadFault FullConfig) : Prop where
  accepted : (∃ c, x = .ok c) ↔ ∃ c, y = .ok c
  loaded : ∀ {c c'}, x = .ok c → y = .ok c' → c = c'

/-- What `Validate` does not look at. -/
theorem session_xmlAccepts {s : SourceSession} (h : s.valid = true) :
    s.xmlAccepts = s.rsslServers.all fun server => !server.isEmpty := by
  simp only [SourceSession.valid, Bool.and_eq_true] at h
  obtain ⟨⟨⟨⟨⟨⟨hname, hconnection⟩, -⟩, -⟩, -⟩, -⟩, -⟩ := h
  simp [SourceSession.xmlAccepts, hname, hconnection]

theorem resource_xmlAccepts {r : SourceResource} (h : r.valid = true) :
    r.xmlAccepts = r.complete := by
  simp only [SourceResource.valid, Bool.and_eq_true] at h
  obtain ⟨⟨⟨hname, hpath⟩, -⟩, -⟩ := h
  have hitems : (r.items.all fun i => present i.ric && present i.topic && !i.sector.isEmpty) =
      r.items.all fun i => !i.sector.isEmpty && present i.ric && present i.topic := by
    congr 1
    funext i
    cases present i.ric <;> cases present i.topic <;> simp
  rw [SourceResource.xmlAccepts, SourceResource.complete, hname, hpath, hitems]
  cases present r.source <;> simp

theorem all_congr {α : Type} {p q : α → Bool} {l : List α} (h : ∀ x ∈ l, p x = q x) :
    l.all p = l.all q := by
  induction l with
  | nil => rfl
  | cons x l ih =>
    rw [List.all_cons, List.all_cons, h x List.mem_cons_self,
      ih fun y hy => h y (List.mem_cons_of_mem _ hy)]

theorem xmlAccepts_of_valid {a : SourceConfig} (h : a.valid = true) :
    a.xmlAccepts = a.complete := by
  simp only [SourceConfig.valid, Bool.and_eq_true] at h
  obtain ⟨⟨⟨⟨⟨⟨⟨⟨hservice, -⟩, hsessions⟩, -⟩, -⟩, -⟩, -⟩, -⟩, hresources⟩ := h
  rw [SourceConfig.xmlAccepts, SourceConfig.complete, hservice, Bool.true_and,
    all_congr fun s hs => session_xmlAccepts (List.all_eq_true.mp hsessions s hs),
    all_congr fun r hr => resource_xmlAccepts (List.all_eq_true.mp hresources r hr)]

/-- The loaders agree on a configuration exactly when it is not valid, or it leaves nothing empty
and repeats no name with another first than last value. -/
theorem loaders_agree_iff (a : SourceConfig) :
    LoadersAgree (parseDomElement a.element {}) (parseConfig a.dictionary {}) ↔
      (a.valid = true → a.complete = true ∧ a.Consistent) := by
  rw [parseDomElement_element, parseConfig_dictionary]
  cases hvalid : a.valid with
  | false =>
    rw [Bool.and_false]
    exact iff_of_true ⟨Iff.rfl, fun h => by cases h⟩ (by simp)
  | true =>
    rw [xmlAccepts_of_valid hvalid]
    cases hcomplete : a.complete with
    | false =>
      refine iff_of_false (fun h => ?_) (by simp)
      obtain ⟨c, hc⟩ := h.accepted.mpr ⟨_, rfl⟩
      cases hc
    | true =>
      simp only [Bool.and_self, if_true, true_implies, true_and]
      rw [← loaded_eq_iff]
      constructor
      · exact fun h => h.loaded rfl rfl
      · intro heq
        refine ⟨⟨fun _ => ⟨_, rfl⟩, fun _ => ⟨_, rfl⟩⟩, fun h h' => ?_⟩
        cases h
        cases h'
        exact heq

/-! ## A resource without its source -/

def sampleSourceResource : SourceResource where
  name := some "equities".toList
  path := some "/equities".toList
  fields := [⟨"Buzz".toList, 6, "6".toList, by decide⟩]
  items := [⟨"1679".toList, some "MPTRXUS01".toList, some "Mining".toList⟩]

def sampleSourceSession : SourceSession where
  sessionName := some "SESSIONA".toList
  publisherName := some "PUBLISHERA".toList
  connectionName := some "CONNECTIONA".toList
  rsslServers := ["adh".toList]
  applicationId := some "256".toList
  instanceId := some "Instance1".toList
  userName := some "user1".toList

def sampleSetting : Setting → Option Text
  | .serviceName => some "NI_VTA".toList
  | .monitorName => some "ApplicationLoggerMonitorName".toList
  | .eventQueueName => some "EventQueueName".toList
  | .vendorName => some "Vendor".toList
  | .maximumDataSize => some "8192".toList
  | .maximumResponseSize => some "65536".toList
  | _ => none

def sourceless : SourceConfig where
  setting := sampleSetting
  sessions := [sampleSourceSession]
  resources := [sampleSourceResource]

/-- JSON is accepted and XML is not. -/
theorem sourceless_disagrees :
    ¬ LoadersAgree (parseDomElement sourceless.element {}) (parseConfig sourceless.dictionary {}) := by
  have hvalid : sourceless.valid = true := by decide
  have hxml : sourceless.xmlAccepts = false := by decide
  rw [parseDomElement_element, parseConfig_dictionary, hvalid, hxml]
  intro h
  obtain ⟨c, hc⟩ := h.accepted.mpr ⟨_, rfl⟩
  cases hc

end Psych
