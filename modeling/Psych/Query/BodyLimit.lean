import Psych.Library.Runs
import Psych.Query.Query

/-!
# The size limit of a body

`on_http_data` takes a chunk where the body then still fits into the capacity that `reserve` has
left. The capacity is at least the configured maximum, so a body may come out larger than that,
and does so exactly where a chunk ends between the two (`body_limited_iff`).
-/

namespace Psych

/-! ## Runs -/

/-- A call of `on_http_data`: the body before it, the bytes it reports as taken, and the body after
it. -/
structure ChunkObs where
  before : Text
  chunk : Text
  taken : Nat
  after : Text

/-- What happens to the connections, in any number of queries and rounds. -/
inductive BodyInput where
  | prepare (flags : QueryFlags) (t0 : Int) (easyInit : Nat → Bool) (c : Nat)
  | header (c : Nat) (line : Text)
  | data (c : Nat) (chunk : Text)
  /-- The response of a transfer is looked at. -/
  | respond (c : Nat) (transfer : Transfer) (engineVersion : Text)
  /-- The end of a query. -/
  | cleanup

/-- The connections, the chunks each has accepted since its request was prepared, and the calls of
`on_http_data`; the latter two are not in the source. -/
structure BodyRun where
  state : State
  accepted : Nat → List Text := fun _ => []
  chunks : List ChunkObs := []

/-- A chunk, which libcurl delivers for an easy handle alone. -/
def BodyRun.data (platform : Platform) (c : Nat) (chunk : Text) (r : BodyRun) : BodyRun :=
  let connection := r.state.connections c
  if connection.handle then
    let result := onHttpData connection chunk
    { state := (callback platform (.data c chunk) r.state).2
      accepted := fun i =>
        if i = c ∧ result.1 = chunk.length then r.accepted i ++ [chunk] else r.accepted i
      chunks := ⟨connection.data, chunk, result.1, result.2.data⟩ :: r.chunks }
  else r

def BodyRun.step (platform : Platform) (config : Config) (r : BodyRun) : BodyInput → BodyRun
  | .prepare flags t0 easyInit c =>
    { r with
      state := Psych.prepare platform config flags t0 easyInit r.state c
      accepted := fun i => if i = c ∧ easyInit c = true then [] else r.accepted i }
  | .header c line => { r with state := (callback platform (.header c line) r.state).2 }
  | .data c chunk => r.data platform c chunk
  | .respond c transfer engineVersion =>
    { r with state := r.state.setConnection c (respond platform config transfer
        (r.state.connections c) r.state.stats engineVersion).2.connection }
  | .cleanup => { r with state := r.state.cleanup }

/-! ## The limit -/

/-- The configured maximum. -/
def maximumResponseSize (config : Config) : Nat := (atol config.maximumResponseSize).toNat

/-- A chunk within the limit was appended, and one beyond it refused as a whole. -/
def ChunkObs.Limited (limit : Nat) (o : ChunkObs) : Prop :=
  if o.before.length + o.chunk.length ≤ limit then
    o.taken = o.chunk.length ∧ o.after = o.before ++ o.chunk
  else o.taken = 0 ∧ o.after = o.before

/-- The body of every prepared request is what was accepted for it, within the limit. -/
structure BodyRun.Limited (limit : Nat) (r : BodyRun) : Prop where
  chunks : ∀ o ∈ r.chunks, o.Limited limit
  data : ∀ c, (r.state.connections c).handle = true →
    (r.state.connections c).data = (r.accepted c).flatten
  length : ∀ c, (r.state.connections c).handle = true →
    (r.state.connections c).data.length ≤ limit

/-- A chunk does not end between the limit and the capacity. -/
def BodyInput.Exact (limit : Nat) (r : BodyRun) : BodyInput → Prop
  | .data c chunk => (r.state.connections c).handle = true →
    (r.state.connections c).data.length + chunk.length ≤ limit ∨
      (r.state.connections c).capacity < (r.state.connections c).data.length + chunk.length
  | _ => True

/-! ## One step -/

variable {platform : Platform} {config : Config} {limit : Nat}

/-- What holds of a prepared request besides: its capacity is at least the limit. -/
structure BodyRun.Bounded (limit : Nat) (r : BodyRun) : Prop extends BodyRun.Limited limit r where
  capacity : ∀ c, (r.state.connections c).handle = true →
    limit ≤ (r.state.connections c).capacity

/-- The body and its capacity stay, and no handle is new. -/
structure SameBody (a b : Connection) : Prop where
  data : b.data = a.data
  capacity : b.capacity = a.capacity
  handle : b.handle = true → a.handle = true

theorem SameBody.refl (a : Connection) : SameBody a a := ⟨rfl, rfl, id⟩

theorem BodyRun.Bounded.of_same {r : BodyRun} (h : r.Bounded limit) {p : State}
    (hsame : ∀ c, SameBody (r.state.connections c) (p.connections c)) :
    BodyRun.Bounded limit { r with state := p } where
  chunks := h.chunks
  data c hc := (hsame c).data.trans (h.data c ((hsame c).handle hc))
  length c hc := (hsame c).data ▸ h.length c ((hsame c).handle hc)
  capacity c hc := (hsame c).capacity ▸ h.capacity c ((hsame c).handle hc)

/-- Only the connection `c` has changed. -/
theorem BodyRun.Bounded.of_others {r q : BodyRun} (h : r.Bounded limit) (c : Nat)
    (hothers : ∀ i, i ≠ c → q.state.connections i = r.state.connections i ∧
      q.accepted i = r.accepted i)
    (hchunks : ∀ o ∈ q.chunks, o.Limited limit)
    (hc : (q.state.connections c).data = (q.accepted c).flatten ∧
      (q.state.connections c).data.length ≤ limit ∧ limit ≤ (q.state.connections c).capacity) :
    q.Bounded limit := by
  obtain ⟨hdata, hlength, hcapacity⟩ := hc
  refine ⟨⟨hchunks, fun i hi => ?_, fun i hi => ?_⟩, fun i hi => ?_⟩ <;> by_cases heq : i = c
  · rw [heq, hdata]
  · rw [(hothers i heq).1] at hi ⊢
    rw [(hothers i heq).2, h.data i hi]
  · rw [heq]
    exact hlength
  · rw [(hothers i heq).1] at hi ⊢
    exact h.length i hi
  · rw [heq]
    exact hcapacity
  · rw [(hothers i heq).1] at hi ⊢
    exact h.capacity i hi

theorem sameBody_setConnection {p : State} {c : Nat} {connection : Connection}
    (h : SameBody (p.connections c) connection) (i : Nat) :
    SameBody (p.connections i) ((p.setConnection c connection).connections i) := by
  unfold State.setConnection
  dsimp only
  split
  · rename_i heq
    rw [heq]
    exact h
  · exact .refl _

theorem header_bounded {r : BodyRun} (h : r.Bounded limit) (c : Nat) (line : Text) :
    BodyRun.Bounded limit { r with state := (callback platform (.header c line) r.state).2 } := by
  unfold callback
  rcases onHttpHeader_cases platform (r.state.connections c) line with
    ⟨_, httpd, heq⟩ | ⟨_, e, _, heq⟩
  · simp only [heq]
    exact h.of_same fun i => @sameBody_setConnection (r.state.observe (.header c line)) c
      { r.state.connections c with httpdPtime := httpd } ⟨rfl, rfl, id⟩ i
  · simp only [heq]
    exact h.of_same fun i => .refl _

theorem respond_bounded {r : BodyRun} (h : r.Bounded limit) (c : Nat) (transfer : Transfer)
    (engineVersion : Text) :
    BodyRun.Bounded limit { r with state := r.state.setConnection c (respond platform config
      transfer (r.state.connections c) r.state.stats engineVersion).2.connection } := by
  refine h.of_same fun i => sameBody_setConnection ?_ i
  rcases respond_cases platform config transfer (r.state.connections c) r.state.stats engineVersion
    with ⟨_, _, heq⟩ | ⟨_, _, _, heq⟩ | ⟨_, _, heq, _⟩ <;> rw [heq]
  · exact .refl _
  · exact .refl _
  · exact ⟨rfl, rfl, id⟩

theorem cleanup_bounded {r : BodyRun} (h : r.Bounded limit) :
    BodyRun.Bounded limit { r with state := r.state.cleanup } := by
  refine h.of_same fun i => ?_
  unfold State.cleanup
  dsimp only
  split
  · exact ⟨rfl, rfl, nofun⟩
  · exact .refl _

/-- Where the maximum is accepted by `Validate`, it is what `reserve` is asked for. -/
theorem toSize_maximum (hvalid : config.validate = true) :
    toSize (atol config.maximumResponseSize) = maximumResponseSize config := by
  have hpositive : positiveSize config.maximumResponseSize = true := by
    simp only [Config.validate, Bool.and_eq_true] at hvalid
    exact hvalid.1.2
  simp only [positiveSize, Bool.and_eq_true, decide_eq_true_eq] at hpositive
  apply toSize_of_nonneg hpositive.2.le
  unfold atol longMax longMin
  omega

theorem prepare_bounded (hvalid : config.validate = true)
    (hreserve : ∀ capacity n, n ≤ platform.reserve capacity n) {r : BodyRun}
    (h : r.Bounded (maximumResponseSize config)) (flags : QueryFlags) (t0 : Int)
    (easyInit : Nat → Bool) (c : Nat) :
    (r.step platform config (.prepare flags t0 easyInit c)).Bounded
      (maximumResponseSize config) := by
  unfold BodyRun.step Psych.prepare
  cases hinit : easyInit c with
  | false =>
    simp only [hinit, Bool.false_eq_true, if_false, and_false]
    exact h.of_same fun i => @sameBody_setConnection r.state c
      { r.state.connections c with handle := false } ⟨rfl, rfl, fun h => by cases h⟩ i
  | true =>
    refine h.of_others c (fun i hi => ?_) h.chunks ?_
    · simp [State.observe, State.setConnection, hinit, hi]
    · simp only [State.observe, State.setConnection, hinit, if_true, and_true]
      exact ⟨rfl, Nat.zero_le _, toSize_maximum hvalid ▸ hreserve _ _⟩

theorem data_of_no_handle {r : BodyRun} {c : Nat}
    (h : (r.state.connections c).handle = false) (chunk : Text) :
    r.data platform c chunk = r := by
  unfold BodyRun.data
  simp [h]

/-- A chunk beyond the capacity is refused. -/
theorem data_refused {r : BodyRun} {c : Nat} (hhandle : (r.state.connections c).handle = true)
    {chunk : Text} (hbeyond : (r.state.connections c).capacity <
      (r.state.connections c).data.length + chunk.length) :
    (r.data platform c chunk).chunks =
      ⟨(r.state.connections c).data, chunk, 0, (r.state.connections c).data⟩ :: r.chunks ∧
    (∀ i, (r.data platform c chunk).state.connections i = r.state.connections i) ∧
    (∀ i, ((r.data platform c chunk).accepted i).flatten = (r.accepted i).flatten) := by
  have hdata : onHttpData (r.state.connections c) chunk = (0, r.state.connections c) :=
    if_pos hbeyond
  unfold BodyRun.data callback
  simp only [hhandle, if_true, hdata]
  refine ⟨trivial, fun i => ?_, fun i => ?_⟩
  · unfold State.setConnection
    dsimp only
    split
    · rename_i heq
      rw [heq]
    · rfl
  · split
    · rename_i hempty
      rw [List.length_eq_zero_iff.mp hempty.2.symm, List.flatten_append]
      simp
    · rfl

/-- A chunk that fits into the capacity is appended. -/
theorem data_taken {r : BodyRun} {c : Nat} (hhandle : (r.state.connections c).handle = true)
    {chunk : Text} (hfits : (r.state.connections c).data.length + chunk.length ≤
      (r.state.connections c).capacity) :
    (r.data platform c chunk).chunks =
      ⟨(r.state.connections c).data, chunk, chunk.length,
        (r.state.connections c).data ++ chunk⟩ :: r.chunks ∧
    (r.data platform c chunk).state = r.state.setConnection c { r.state.connections c with
      data := (r.state.connections c).data ++ chunk } ∧
    (r.data platform c chunk).accepted = fun i =>
      if i = c then r.accepted i ++ [chunk] else r.accepted i := by
  have hdata : onHttpData (r.state.connections c) chunk =
      (chunk.length, { r.state.connections c with
        data := (r.state.connections c).data ++ chunk }) := if_neg (Nat.not_lt.mpr hfits)
  unfold BodyRun.data callback
  simp [hhandle, hdata]

theorem data_bounded {r : BodyRun} (h : r.Bounded limit) {c : Nat} {chunk : Text}
    (hexact : (BodyInput.data c chunk).Exact limit r) :
    (r.data platform c chunk).Bounded limit := by
  cases hhandle : (r.state.connections c).handle with
  | false => exact (data_of_no_handle hhandle chunk).symm ▸ h
  | true =>
    have hcapacity := h.capacity c hhandle
    rcases hexact hhandle with hwithin | hbeyond
    · obtain ⟨hchunks, hstate, haccepted⟩ :=
        @data_taken platform r c hhandle chunk (hwithin.trans hcapacity)
      refine h.of_others c (fun i hi => ?_) (fun o ho => ?_) ?_
      · simp [hstate, haccepted, State.setConnection, hi]
      · rw [hchunks] at ho
        rcases List.mem_cons.mp ho with rfl | hold
        · exact (if_pos hwithin).mpr ⟨rfl, rfl⟩
        · exact h.chunks o hold
      · rw [hstate, haccepted]
        simp only [State.setConnection, if_true, List.flatten_append, List.length_append,
          h.data c hhandle] at hwithin ⊢
        exact ⟨by simp, hwithin, hcapacity⟩
    · obtain ⟨hchunks, hstate, haccepted⟩ := @data_refused platform r c hhandle chunk hbeyond
      refine ⟨⟨fun o ho => ?_, fun i => ?_, fun i => ?_⟩, fun i => ?_⟩
      · rw [hchunks] at ho
        rcases List.mem_cons.mp ho with rfl | hold
        · exact (if_neg (by dsimp only; omega)).mpr ⟨rfl, rfl⟩
        · exact h.chunks o hold
      · rw [hstate, haccepted]
        exact h.data i
      · rw [hstate]
        exact h.length i
      · rw [hstate]
        exact h.capacity i

/-- A chunk that ends between the limit and the capacity is appended. -/
theorem exact_of_limited {r : BodyRun} {c : Nat} {chunk : Text}
    (h : (r.data platform c chunk).Limited limit) : (BodyInput.data c chunk).Exact limit r := by
  intro hhandle
  by_contra hno
  rw [not_or, Nat.not_le, Nat.not_lt] at hno
  obtain ⟨hbeyond, hfits⟩ := hno
  obtain ⟨hchunks, hstate, _⟩ := @data_taken platform r c hhandle chunk hfits
  have hlength := h.length c
  rw [hstate] at hlength
  simp only [State.setConnection, if_true, List.length_append] at hlength
  have hwithin := hlength hhandle
  omega

/-! ## The result -/

/-- Every body is what was accepted for it, within the limit, and every chunk was appended or
refused by the limit, exactly where no chunk ends between the limit and the capacity. -/
theorem body_limited_iff (hvalid : config.validate = true)
    (hreserve : ∀ capacity n, n ≤ platform.reserve capacity n) {start : State}
    (hstart : ∀ c, (start.connections c).handle = false) (inputs : List BodyInput) :
    (∀ r ∈ inputs.scanl (BodyRun.step platform config) { state := start },
        r.Limited (maximumResponseSize config)) ↔
      Runs.Guarded (BodyRun.step platform config)
        (fun r input => input.Exact (maximumResponseSize config) r) { state := start } inputs := by
  have hempty : ({ state := start } : BodyRun).Bounded (maximumResponseSize config) := by
    refine ⟨⟨by simp, fun c hc => ?_, fun c hc => ?_⟩, fun c hc => ?_⟩ <;>
      · rw [hstart c] at hc
        cases hc
  refine Runs.forall_scanl_iff_guarded_of_invariant
    (I := BodyRun.Bounded (maximumResponseSize config)) (fun r h => h.toLimited)
    (fun r input h hexact => ?_) (fun r input h hlimited => ?_) hempty inputs
  · cases input with
    | prepare flags t0 easyInit c => exact prepare_bounded hvalid hreserve h flags t0 easyInit c
    | header c line => exact header_bounded h c line
    | data c chunk => exact data_bounded h hexact
    | respond c transfer engineVersion => exact respond_bounded h c transfer engineVersion
    | cleanup => exact cleanup_bounded h
  · cases input with
    | data c chunk => exact exact_of_limited hlimited
    | prepare | header | respond | cleanup => trivial

/-- A request that is prepared, and a body of two chunks. -/
def sampleBodyInputs : List BodyInput :=
  [.prepare timerFlags 0 (fun _ => true) 0, .data 0 "# Mark".toList, .data 0 "etPsych".toList]

theorem sample_body_limited :
    (sampleBodyInputs.foldl (BodyRun.step boostPlatform sampleConfig)
      { state := sampleState }).Limited (maximumResponseSize sampleConfig) := by
  refine (body_limited_iff (by decide) (fun _ _ => le_rfl) (fun _ => rfl) sampleBodyInputs).mpr ?_ _
    (List.mem_of_getLast? List.getLast?_scanl)
  unfold sampleBodyInputs
  simp only [Runs.guarded_cons, Runs.guarded_nil, and_true]
  exact ⟨trivial, fun _ => Or.inl (by decide), fun _ => Or.inl (by decide)⟩

/-- A string that never allocates fewer than 15 characters. -/
def roomyPlatform : Platform := { boostPlatform with reserve := fun _ n => max 15 n }

def tenConfig : Config := { sampleConfig with maximumResponseSize := "10".toList }

/-- A body of 13 characters is accepted with a maximum of 10. -/
theorem thirteen_accepted :
    tenConfig.validate = true ∧ (∀ capacity n, n ≤ roomyPlatform.reserve capacity n) ∧
    ¬ ∀ r ∈ sampleBodyInputs.scanl (BodyRun.step roomyPlatform tenConfig)
        { state := sampleState }, r.Limited (maximumResponseSize tenConfig) := by
  refine ⟨by decide, fun _ n => le_max_right 15 n, fun h => ?_⟩
  have hlimited := h _ (List.mem_of_getLast? List.getLast?_scanl)
  exact absurd (hlimited.length 0 (by decide)) (by decide)

end Psych
