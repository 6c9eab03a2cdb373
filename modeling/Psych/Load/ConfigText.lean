import Psych.Library.Parts
import Psych.Load.Agreement
import Psych.Load.JsonErrors
import Psych.Load.JsonWriter

/-!
# The configuration file

From the text of the file to the configuration, as `Run` has it before `Init`: the reader of JSON
and `ParseConfig` together. A configuration has a text (`isDocument_json`), and every text that
denotes it is loaded as that configuration (`loadConfig_document`).
-/

namespace Psych

/-! ## Values -/

mutual

/-- The value `ParseConfig` finds. It asks none below the document for its boolean, so that a
`null` or a `double` there is no different from one. -/
def JsonNode.value : JsonNode → JsonValue
  | .null => .boolean false
  | .double _ => .boolean false
  | .boolean b => .boolean b
  | .integer n => .integer n
  | .string s => .string s
  | .list l => .list (elementValues l)
  | .dictionary d => .dictionary (memberValues d)

def elementValues : List JsonNode → List JsonValue
  | [] => []
  | node :: l => node.value :: elementValues l

def memberValues : List (Text × JsonNode) → Dictionary
  | [] => []
  | (key, node) :: d => (key, node.value) :: memberValues d

end

/-- A member of the document; none is asked for its integer. -/
def JsonNode.setting : JsonNode → JsonValue
  | .null => .integer 0
  | .double _ => .integer 0
  | node => node.value

/-- How `Run` ends before `Init`. -/
inductive ConfigFault where
  /-- The root is null and is used, which is undefined; the error is logged before. -/
  | unreadable (error : JsonParseError) (message : Text)
  /-- The root is used as the dictionary it is not, which is undefined. -/
  | notDictionary
  /-- An exception leaves the reader. -/
  | outOfRange
  | parse (fault : LoadFault)
deriving DecidableEq

/-- `Run` from the text of the file on. The reader reads it twice, alike. -/
def loadConfig (stod : Text → Stod) (json : Text) : Except ConfigFault FullConfig :=
  match readAndReturnError stod json false with
  | .error (some (error, message)) => .error (.unreadable error message)
  | .error none => .error .outOfRange
  | .ok (.dictionary d) =>
    (parseConfig (OrderedMap.mapValues JsonNode.setting d) {}).mapError .parse
  | .ok _ => .error .notDictionary

/-! ## Documents of configurations -/

mutual

def JsonValue.node : JsonValue → JsonNode
  | .boolean b => .boolean b
  | .integer n => .integer n
  | .string s => .string s
  | .list l => .list (elementNodesOf l)
  | .dictionary d => .dictionary (memberNodesOf d)

def elementNodesOf : List JsonValue → List JsonNode
  | [] => []
  | value :: l => value.node :: elementNodesOf l

def memberNodesOf : List (Text × JsonValue) → List (Text × JsonNode)
  | [] => []
  | (key, value) :: d => (key, value.node) :: memberNodesOf d

end

/-- The root of the documents of a configuration. -/
def SourceConfig.node (a : SourceConfig) : JsonNode := (JsonValue.dictionary a.dictionary).node

mutual

@[simp]
theorem JsonValue.value_node : ∀ value : JsonValue, value.node.value = value
  | .boolean _ => rfl
  | .integer _ => rfl
  | .string _ => rfl
  | .list l => congrArg JsonValue.list (elementValues_nodes l)
  | .dictionary d => congrArg JsonValue.dictionary (memberValues_nodes d)

theorem elementValues_nodes : ∀ l : List JsonValue, elementValues (elementNodesOf l) = l
  | [] => rfl
  | value :: l => by
    rw [elementNodesOf, elementValues, value.value_node, elementValues_nodes l]

theorem memberValues_nodes : ∀ d : List (Text × JsonValue), memberValues (memberNodesOf d) = d
  | [] => rfl
  | (key, value) :: d => by
    rw [memberNodesOf, memberValues, value.value_node, memberValues_nodes d]

end

theorem setting_node (value : JsonValue) : value.node.setting = value := by
  cases value with
  | boolean b => rfl
  | integer n => rfl
  | string s => rfl
  | list l => exact JsonValue.value_node (.list l)
  | dictionary d => exact JsonValue.value_node (.dictionary d)

theorem settings_nodes (d : List (Text × JsonValue)) :
    OrderedMap.mapValues JsonNode.setting (memberNodesOf d) = d := by
  induction d with
  | nil => rfl
  | cons e d ih =>
    obtain ⟨key, value⟩ := e
    rw [memberNodesOf, OrderedMap.mapValues, List.map_cons, setting_node]
    exact congrArg _ ih

/-- Every text that denotes a configuration is loaded as it, the last of several entries of a name,
if `Validate` accepts it, and refused otherwise. -/
theorem loadConfig_document {stod : Text → Stod} {json : Text} {a : SourceConfig}
    (h : IsDocument stod true false json a.node) :
    loadConfig stod json =
      if a.valid then .ok (a.loaded false) else .error (.parse .rejected) := by
  obtain ⟨reader, hread, -⟩ := ok_of_isDocument h
  have hroot : a.node = .dictionary (memberNodesOf a.dictionary) := rfl
  unfold loadConfig readAndReturnError
  simp only [hread, hroot, settings_nodes, parseConfig_dictionary]
  cases a.valid <;> rfl

/-! ## The text of a configuration -/

/-- The value has a document of at most `n` levels. -/
structure JsonValue.Fits (stod : Text → Stod) (n : Nat) (value : JsonValue) : Prop where
  readable : value.node.Readable stod
  nesting : value.node.document.nesting ≤ n

section Fits

variable {stod : Text → Stod} {n : Nat}

theorem JsonValue.Fits.mono {m : Nat} {value : JsonValue} (h : value.Fits stod n) (hle : n ≤ m) :
    value.Fits stod m := ⟨h.readable, h.nesting.trans hle⟩

theorem fits_string (s : Text) : (JsonValue.string s).Fits stod 1 := ⟨trivial, Nat.le_refl 1⟩

theorem fits_boolean (b : Bool) : (JsonValue.boolean b).Fits stod 1 := by
  cases b <;> exact ⟨trivial, Nat.le_refl 1⟩

theorem fits_integer {i : Int} (hmin : intMin ≤ i) (hmax : i ≤ intMax) :
    (JsonValue.integer i).Fits stod 1 := ⟨⟨hmin, hmax⟩, Nat.le_refl 1⟩

theorem fits_list {l : List JsonValue} (h : ∀ value ∈ l, value.Fits stod n) :
    (JsonValue.list l).Fits stod (1 + n) := by
  have hall : ReadableElements stod (elementNodesOf l) ∧
      elementNesting (elementDocuments (elementNodesOf l)) ≤ n := by
    induction l with
    | nil => exact ⟨trivial, Nat.zero_le n⟩
    | cons value l ih =>
      rw [List.forall_mem_cons] at h
      obtain ⟨hreadable, hnesting⟩ := ih h.2
      exact ⟨⟨h.1.readable, hreadable⟩, Nat.max_le.mpr ⟨h.1.nesting, hnesting⟩⟩
  exact ⟨hall.1, Nat.add_le_add_left hall.2 1⟩

theorem memberNodesOf_eq (d : List (Text × JsonValue)) :
    memberNodesOf d = OrderedMap.mapValues JsonValue.node d := by
  induction d with
  | nil => rfl
  | cons e d ih => rw [memberNodesOf, ih, OrderedMap.mapValues, OrderedMap.mapValues, List.map_cons]

/-- The dictionary of the members of an object. -/
theorem fits_ofMembers {members : List (Text × JsonValue)}
    (h : ∀ e ∈ members, e.2.Fits stod n) :
    (JsonValue.dictionary (Dictionary.ofMembers members)).Fits stod (1 + n) := by
  have hlasts : memberNodesOf (Dictionary.ofMembers members) =
      OrderedMap.lasts (OrderedMap.mapValues JsonValue.node members) := by
    rw [memberNodesOf_eq, Dictionary.ofMembers, OrderedMap.lasts_mapValues]
  have hfits : ∀ e ∈ memberNodesOf (Dictionary.ofMembers members),
      e.2.Readable stod ∧ e.2.document.nesting ≤ n := by
    rw [hlasts]
    intro e he
    obtain ⟨m, hm, rfl⟩ := List.mem_map.mp (OrderedMap.mem_lasts he)
    exact ⟨(h m hm).readable, (h m hm).nesting⟩
  refine ⟨⟨?_, readableMembers_iff.mpr fun e he => (hfits e he).1⟩, Nat.add_le_add_left ?_ 1⟩
  · rw [hlasts]
    exact OrderedMap.sorted_lasts _
  · rw [memberNesting_le_iff, memberDocuments_eq_map]
    intro m hm
    obtain ⟨e, he, rfl⟩ := List.mem_map.mp hm
    exact (hfits e he).2

theorem fits_of {members : List (String × Option JsonValue)}
    (h : ∀ e ∈ members, ∀ value, e.2 = some value → value.Fits stod n) :
    (JsonValue.dictionary (Dictionary.of members)).Fits stod (1 + n) := by
  refine fits_ofMembers fun e he => ?_
  obtain ⟨m, hm, hvalue⟩ := List.mem_filterMap.mp he
  obtain ⟨e', he', rfl⟩ := List.mem_map.mp hm
  obtain ⟨value, heq, rfl⟩ := Option.map_eq_some_iff.mp hvalue
  exact h e' he' value heq

theorem fits_text (hn : 1 ≤ n) (text : Option Text) (value : JsonValue)
    (h : text.map .string = some value) : value.Fits stod n := by
  obtain ⟨s, -, rfl⟩ := Option.map_eq_some_iff.mp h
  exact (fits_string s).mono hn

end Fits

/-- The number of a field or an entitlement code is one of an `int`. -/
theorem stoi_bounds {s : Text} {id : Int} (h : stoi s = some id) : intMin ≤ id ∧ id ≤ intMax := by
  unfold stoi at h
  simp only [Bool.and_eq_true, decide_eq_true_eq, Option.ite_none_right_eq_some,
    Option.some.injEq] at h
  obtain ⟨⟨⟨-, hmin⟩, hmax⟩, rfl⟩ := h
  exact ⟨hmin, hmax⟩

/-- The codes of entitlements are of an `int`. -/
def SourceConfig.CodesFit (a : SourceConfig) : Prop :=
  ∀ r ∈ a.resources, ∀ c ∈ r.entitlementCode, intMin ≤ c.code ∧ c.code ≤ intMax

section Levels

variable {stod : Text → Stod}

theorem session_fits (s : SourceSession) :
    (JsonValue.dictionary s.dictionary).Fits stod 3 := by
  apply @fits_of stod 2 _
  have htext := @fits_text stod 2 (by decide)
  simp only [SourceSession.members, List.forall_mem_cons]
  refine ⟨htext _, htext _, htext _, ?_, htext _, htext _, htext _, htext _, htext _, by simp⟩
  rintro value ⟨⟩
  refine @fits_list stod 1 _ fun value hvalue => ?_
  obtain ⟨server, -, rfl⟩ := List.mem_map.mp hvalue
  exact fits_string server

theorem item_fits (i : SourceItem) : (JsonValue.dictionary i.dictionary).Fits stod 2 := by
  apply @fits_of stod 1 _
  simp only [List.forall_mem_cons]
  exact ⟨fits_text (Nat.le_refl 1) i.ric, fits_text (Nat.le_refl 1) i.topic, by simp⟩

theorem resource_fits (r : SourceResource)
    (hcodes : ∀ c ∈ r.entitlementCode, intMin ≤ c.code ∧ c.code ≤ intMax) :
    (JsonValue.dictionary r.dictionary).Fits stod 4 := by
  apply @fits_of stod 3 _
  have htext := @fits_text stod 3 (by decide)
  simp only [SourceResource.members, List.forall_mem_cons]
  refine ⟨htext _, htext _, htext _, ?_, ?_, ?_, by simp⟩
  · intro value hvalue
    obtain ⟨c, hc, rfl⟩ := Option.map_eq_some_iff.mp hvalue
    obtain ⟨hmin, hmax⟩ := hcodes c hc
    exact (fits_integer hmin hmax).mono (by decide)
  · rintro value ⟨⟩
    refine (@fits_ofMembers stod 1 _ fun e he => ?_).mono (by decide)
    obtain ⟨f, -, rfl⟩ := List.mem_map.mp he
    obtain ⟨hmin, hmax⟩ := stoi_bounds f.reads
    exact fits_integer hmin hmax
  · rintro value ⟨⟩
    refine @fits_ofMembers stod 2 _ fun e he => ?_
    obtain ⟨i, -, rfl⟩ := List.mem_map.mp he
    exact item_fits i

theorem config_fits (a : SourceConfig) (hcodes : a.CodesFit) :
    (JsonValue.dictionary a.dictionary).Fits stod 6 := by
  apply @fits_of stod 5 _
  simp only [SourceConfig.members, List.forall_mem_cons]
  refine ⟨?_, ?_, ?_, ?_, ?_, ?_⟩
  · rintro value ⟨⟩
    exact (fits_boolean _).mono (by decide)
  · intro value hvalue
    obtain ⟨x, -, hx⟩ := Option.bind_eq_some_iff.mp hvalue
    obtain ⟨b, -, rfl⟩ := Option.map_eq_some_iff.mp hx
    exact (fits_boolean b).mono (by decide)
  · intro value hvalue
    obtain ⟨x, -, hx⟩ := Option.bind_eq_some_iff.mp hvalue
    exact fits_text (by decide) _ value hx
  · rintro value ⟨⟩
    refine (@fits_list stod 3 _ fun value hvalue => ?_).mono (by decide)
    obtain ⟨s, -, rfl⟩ := List.mem_map.mp hvalue
    exact session_fits s
  · rintro value ⟨⟩
    refine @fits_list stod 4 _ fun value hvalue => ?_
    obtain ⟨r, hr, rfl⟩ := List.mem_map.mp hvalue
    exact resource_fits r (hcodes r hr)
  · intro e he value hvalue
    obtain ⟨m, -, rfl⟩ := List.mem_map.mp he
    exact fits_text (by decide) _ value hvalue

/-- A configuration has a text. -/
theorem isDocument_json (a : SourceConfig) (hcodes : a.CodesFit) :
    IsDocument stod true false a.node.json a.node := by
  have hfits := @config_fits stod a hcodes
  have hread : a.node.IsRead stod true :=
    ⟨hfits.readable, hfits.nesting.trans (by decide), fun _ => rfl⟩
  exact isDocument_of_isRead hread false (written_spaced (a.node.document_lexemes hread.readable))
    .nil

end Levels

/-- A resource without its source, from its text. -/
theorem sourceless_text : loadConfig (fun _ => .refused) sourceless.node.json =
    .ok (sourceless.loaded false) := by
  have hvalid : sourceless.valid = true := by decide
  have hdocument :
      IsDocument (fun _ => .refused) true false sourceless.node.json sourceless.node := by
    refine isDocument_json sourceless fun r hr c hc => ?_
    cases List.mem_singleton.mp hr
    cases hc
  rw [loadConfig_document hdocument, if_pos hvalid]

/-! ## Texts that are not loaded -/

/-- What a text is that `Run` ends so for. An error that is logged names a place in the file. -/
def ConfigOutcome (stod : Text → Stod) (json : Text) : Except ConfigFault FullConfig → Prop
  | .ok c => c.validate = true ∧ ∃ d, IsDocument stod true false json (.dictionary d)
  | .error (.parse _) => ∃ d, IsDocument stod true false json (.dictionary d)
  | .error .notDictionary => ∃ l, IsDocument stod true false json (.list l)
  | .error (.unreadable error message) =>
    (∀ node, ¬ IsDocument stod true false json node) ∧ error ≠ .noError ∧
      ∃ before after, withoutByteOrderMark json = before ++ after ∧
        message = formatErrorMessage (before.foldl nextPosition (1, 1)).1
          (before.foldl nextPosition (1, 1)).2 error.text
  | .error .outOfRange =>
    (∀ node, ¬ IsDocument stod true false json node) ∧
      OutOfRangeAfter stod (withoutByteOrderMark json)

theorem parseConfig_validate {d : Dictionary} {c₀ c : FullConfig}
    (h : parseConfig d c₀ = .ok c) : c.validate = true := by
  unfold parseConfig at h
  obtain ⟨_, _, h⟩ := Parts.bind_eq_ok_iff.mp h
  obtain ⟨_, _, h⟩ := Parts.bind_eq_ok_iff.mp h
  obtain ⟨_, _, h⟩ := Parts.bind_eq_ok_iff.mp h
  obtain ⟨_, _, h⟩ := Parts.bind_eq_ok_iff.mp h
  obtain ⟨c', _, h⟩ := Parts.bind_eq_ok_iff.mp h
  split at h
  · rename_i hvalid
    cases h
    exact hvalid
  · cases h

/-- How `Run` ends for a text. -/
theorem loadConfig_outcome (stod : Text → Stod) (json : Text) :
    ConfigOutcome stod json (loadConfig stod json) := by
  have hsettles := jsonToValue_settles stod json true false
  have hno : ∀ failure, jsonToValue stod json true false = .error failure →
      ∀ node, ¬ IsDocument stod true false json node := by
    intro failure hfailure node hdocument
    obtain ⟨reader, hread, -⟩ := ok_of_isDocument hdocument
    rw [hread] at hfailure
    cases hfailure
  unfold loadConfig readAndReturnError
  cases hread : jsonToValue stod json true false with
  | error failure =>
    have hno := hno failure hread
    rw [hread] at hsettles
    cases failure with
    | null reader =>
      obtain ⟨hstart, hfailed⟩ := hsettles
      obtain ⟨before, after, hsplit, hposition⟩ := hfailed.located
      rw [Prod.ext_iff] at hposition
      refine ⟨hno, hfailed.code, before, after, hstart ▸ hsplit, ?_⟩
      rw [← hposition.1, ← hposition.2]
      rfl
    | outOfRange => exact ⟨hno, hsettles⟩
    | endless => exact hsettles.elim
  | ok result =>
    obtain ⟨root, reader⟩ := result
    have hdocument := isDocument_of_ok hread
    cases root with
    | list l => exact ⟨l, hdocument⟩
    | dictionary d =>
      simp only
      cases hparse : parseConfig (OrderedMap.mapValues JsonNode.setting d) {} with
      | error fault => exact ⟨d, hdocument⟩
      | ok c => exact ⟨parseConfig_validate hparse, d, hdocument⟩
    | boolean b => cases b <;> cases (isDocument_isRead hdocument).root rfl
    | _ => cases (isDocument_isRead hdocument).root rfl

end Psych
