import Psych.Rfa.Provider

/-!
# Setting up the sessions

`provider_t::Init` acquires the sessions, and after the version check creates the provider of each
and logs it in; what its sessions return is not looked at. A login that is registered lowers the
version of the wire format that the directory is encoded in.
-/

namespace Psych

/-- The version of the Reuters Wire Format, two numbers of 8 bits. -/
structure RwfVersion where
  major : Fin 256
  minor : Fin 256
deriving DecidableEq

/-- What RFA returns while one session is set up. -/
structure SetupCalls where
  /-- Whether `Session::acquire` returns a session. -/
  acquire : Bool := true
  /-- Whether `createOMMProvider` returns a provider. -/
  ommProvider : Bool := true
  /-- Whether the registration for errors returns a handle. -/
  errorItemHandle : Bool := true
  /-- Whether `validateMsg` warns of the login request. -/
  warning : Bool := false
  /-- The version of the handle that the registration for the login returns. -/
  login : Option RwfVersion

/-- The members of `session_t` that are set while it is set up; of a pointer or a handle, whether
it is not null. -/
structure SessionSetup where
  session : Bool := false
  ommProvider : Bool := false
  errorItemHandle : Bool := false
  itemHandle : Bool := false
  rwfVersion : RwfVersion := ⟨0, 0⟩
  stats : SessionCounter → BitVec 32 := fun _ => 0

def SessionSetup.bump (s : SessionSetup) (counter : SessionCounter) : SessionSetup :=
  { s with stats := fun c => if c = counter then s.stats c + 1 else s.stats c }

/-- The smallest version so far is taken as not set where it is 0.0. -/
def RwfVersion.degrade (min rwf : RwfVersion) : RwfVersion :=
  -- first session
  let min := if min.major = 0 ∧ min.minor = 0 then rwf else min
  if (min.major = rwf.major ∧ rwf.minor < min.minor) ∨ rwf.major < min.major then rwf else min

/-- `session_t::Init`. -/
def SessionSetup.init (calls : SetupCalls) (s : SessionSetup) : Bool × SessionSetup :=
  (calls.acquire, { s with session := calls.acquire })

/-- `omm_provider_->registerClient`; `given` is whether it returns a handle. -/
def SessionSetup.registerClient (given : Bool) (s : SessionSetup) : Except Fault Bool :=
  if s.ommProvider then .ok given else .error .undefined

/-- `SendLoginRequest`, with the smallest version of the provider. -/
def sendLoginRequest (calls : SetupCalls) (s : SessionSetup × RwfVersion) :
    Except Fault Bool × (SessionSetup × RwfVersion) :=
  let session := s.1.bump (if calls.warning then .mmtLoginMalformed else .mmtLoginValidated)
  match session.registerClient calls.login.isSome with
  | .error e => (.error e, (session, s.2))
  | .ok _ =>
    let session := session.bump .mmtLoginSent
    match calls.login with
    | none => (.ok false, ({ session with itemHandle := false }, s.2))
    | some rwf =>
      (.ok true, ({ session with itemHandle := true, rwfVersion := rwf }, s.2.degrade rwf))

/-- `CreateOMMProvider`. -/
def createOMMProvider (calls : SetupCalls) (s : SessionSetup × RwfVersion) :
    Except Fault Bool × (SessionSetup × RwfVersion) :=
  -- `session_->` is not guarded
  if !s.1.session then (.error .undefined, s)
  else
    let session := { s.1 with ommProvider := calls.ommProvider }
    if !session.ommProvider then (.ok false, (session, s.2))
    else
      match session.registerClient calls.errorItemHandle with
      | .error e => (.error e, (session, s.2))
      | .ok given =>
        let session := { session with errorItemHandle := given }
        if !given then (.ok false, (session, s.2)) else sendLoginRequest calls (session, s.2)

/-- The sessions that have been set up, and `min_rwf_major_version_`, `min_rwf_minor_version_`. -/
structure ProviderSetup where
  sessions : List SessionSetup := []
  minRwfVersion : RwfVersion := ⟨0, 0⟩

/-- The body of the second loop of `provider_t::Init`. -/
def setUpSession (session : SetupCalls × SessionSetup) (s : ProviderSetup) :
    Except Fault Unit × ProviderSetup :=
  match createOMMProvider session.1 (session.2, s.minRwfVersion) with
  | (.error e, r) => (.error e, ⟨s.sessions ++ [r.1], r.2⟩)
  | (.ok _, r) => (.ok (), ⟨s.sessions ++ [r.1], r.2⟩)

/-- The sessions of a new `provider_t`, after `Init` of each. -/
def acquired (calls : List SetupCalls) : List (SetupCalls × SessionSetup) :=
  calls.map fun c => (c, (SessionSetup.init c {}).2)

/-- `provider_t::Init`; `verified` is the result of `VerifyVersion`. -/
def providerInit (verified : Bool) (calls : List SetupCalls) : Except Fault Bool × ProviderSetup :=
  if !verified then (.ok false, { sessions := (acquired calls).map Prod.snd })
  else
    match Faults.forEach setUpSession (acquired calls) {} with
    | (.error e, s) => (.error e, s)
    | (.ok (), s) => (.ok true, s)

/-! ## One session -/

/-- The version of a login that is registered. -/
def SetupCalls.negotiated (calls : SetupCalls) : Option RwfVersion :=
  if calls.ommProvider && calls.errorItemHandle then calls.login else none

/-- A handle of the login comes from a provider. -/
def SessionSetup.Sound (s : SessionSetup) : Prop :=
  s.itemHandle = true → s.ommProvider = true

theorem sendLoginRequest_spec (calls : SetupCalls) {s : SessionSetup × RwfVersion}
    (h : s.1.ommProvider = true) :
    (sendLoginRequest calls s).1 = .ok calls.login.isSome ∧
      (sendLoginRequest calls s).2.1.ommProvider = true ∧
      (sendLoginRequest calls s).2.2 = calls.login.elim s.2 s.2.degrade := by
  have hregister : ∀ counter given,
      (s.1.bump counter).registerClient given = .ok given := fun _ _ => if_pos h
  unfold sendLoginRequest
  simp only [hregister]
  cases calls.login <;> exact ⟨rfl, h, rfl⟩

/-- A session that was acquired is set up as far as RFA lets it, and crashes nothing. -/
theorem createOMMProvider_spec (calls : SetupCalls) {s : SessionSetup × RwfVersion}
    (h : s.1.session = true) (hfresh : s.1.itemHandle = false) :
    (∃ b, (createOMMProvider calls s).1 = .ok b) ∧ (createOMMProvider calls s).2.1.Sound ∧
      (createOMMProvider calls s).2.2 = calls.negotiated.elim s.2 s.2.degrade := by
  have hsound : ∀ t : SessionSetup, t.itemHandle = false → t.Sound := fun t ht hhandle => by
    rw [ht] at hhandle
    cases hhandle
  unfold createOMMProvider SetupCalls.negotiated SessionSetup.registerClient
  rw [if_neg (by simp [h])]
  cases calls.ommProvider with
  | false => exact ⟨⟨false, rfl⟩, hsound _ hfresh, rfl⟩
  | true =>
    cases calls.errorItemHandle with
    | false => exact ⟨⟨false, rfl⟩, hsound _ hfresh, rfl⟩
    | true =>
      obtain ⟨hok, homm, hmin⟩ := @sendLoginRequest_spec calls
        ({ s.1 with ommProvider := true, errorItemHandle := true }, s.2) rfl
      exact ⟨⟨_, hok⟩, fun _ => homm, hmin⟩

theorem createOMMProvider_crashes {calls : SetupCalls} {s : SessionSetup × RwfVersion}
    (h : s.1.session = false) : (createOMMProvider calls s).1 = .error .undefined := by
  unfold createOMMProvider
  rw [h]
  rfl

/-! ## The loop -/

theorem mem_acquired {calls : List SetupCalls} {session : SetupCalls × SessionSetup}
    (h : session ∈ acquired calls) :
    session.1 ∈ calls ∧ session.2.session = session.1.acquire ∧ session.2.itemHandle = false := by
  obtain ⟨c, hc, rfl⟩ := List.mem_map.mp h
  exact ⟨hc, rfl, rfl⟩

theorem setUpSession_ok_iff {session : SetupCalls × SessionSetup}
    (hfresh : session.2.itemHandle = false) (s : ProviderSetup) :
    (setUpSession session s).1 = .ok () ↔ session.2.session = true := by
  unfold setUpSession
  cases hsession : session.2.session with
  | false =>
    have hcrash := @createOMMProvider_crashes session.1 (session.2, s.minRwfVersion) hsession
    split <;> simp_all
  | true =>
    obtain ⟨⟨b, hok⟩, _⟩ := @createOMMProvider_spec session.1 (session.2, s.minRwfVersion)
      hsession hfresh
    split <;> simp_all

theorem setUpSession_error {session : SetupCalls × SessionSetup}
    (hfresh : session.2.itemHandle = false) (s : ProviderSetup) :
    ∀ e, (setUpSession session s).1 = .error e → e = .undefined := by
  intro e he
  cases hsession : session.2.session with
  | true =>
    rw [(setUpSession_ok_iff hfresh s).mpr hsession] at he
    cases he
  | false =>
    have hcrash := @createOMMProvider_crashes session.1 (session.2, s.minRwfVersion) hsession
    unfold setUpSession at he
    split at he <;> simp_all

/-- The sessions that were set up, with the versions negotiated. -/
structure SetUp (calls : List SetupCalls) (s : ProviderSetup) : Prop where
  sessions : ∀ session ∈ s.sessions, session.Sound
  minRwfVersion :
    s.minRwfVersion = (calls.filterMap SetupCalls.negotiated).foldl RwfVersion.degrade ⟨0, 0⟩

theorem setUpSession_setUp {session : SetupCalls × SessionSetup}
    (hsession : session.2.session = true) (hfresh : session.2.itemHandle = false)
    {before : List SetupCalls} {s : ProviderSetup} (h : SetUp before s) :
    SetUp (before ++ [session.1]) (setUpSession session s).2 := by
  obtain ⟨⟨b, hok⟩, hsound, hmin⟩ := @createOMMProvider_spec session.1
    (session.2, s.minRwfVersion) hsession hfresh
  have hsetUp : SetUp (before ++ [session.1])
      ⟨s.sessions ++ [(createOMMProvider session.1 (session.2, s.minRwfVersion)).2.1],
        (createOMMProvider session.1 (session.2, s.minRwfVersion)).2.2⟩ := by
    refine ⟨fun t ht => ?_, ?_⟩
    · rcases List.mem_append.mp ht with hold | hnew
      · exact h.sessions t hold
      · rw [List.mem_singleton.mp hnew]
        exact hsound
    · change (createOMMProvider session.1 (session.2, s.minRwfVersion)).2.2 = _
      rw [hmin, List.filterMap_append, List.foldl_append, ← h.minRwfVersion]
      cases hnegotiated : session.1.negotiated <;> simp [List.filterMap, hnegotiated]
  unfold setUpSession
  split <;> rename_i heq <;> rw [heq] at hsetUp <;> exact hsetUp

/-- The second loop of `Init` runs to its end exactly where every session was acquired. -/
theorem setUpSessions_ok_iff (calls : List SetupCalls) :
    (Faults.forEach setUpSession (acquired calls) {}).1 = .ok () ↔
      ∀ c ∈ calls, c.acquire = true := by
  rw [Faults.forEach_ok_iff (fun _ => True) (G := fun session => session.2.session = true)
    (fun session hsession s _ =>
      ⟨setUpSession_ok_iff (mem_acquired hsession).2.2 s, trivial⟩) trivial]
  simp [acquired, SessionSetup.init]

theorem setUpSessions_setUp {calls : List SetupCalls} (h : ∀ c ∈ calls, c.acquire = true) :
    SetUp calls (Faults.forEach setUpSession (acquired calls) {}).2 := by
  have hrun := Faults.forEach_prefix (f := setUpSession) (l := acquired calls) (s := {})
    (I := fun pre s => SetUp (pre.map Prod.fst) s) (F := fun _ _ => False)
    (fun pre session post s hsplit hs _ => by
      have hmem : session ∈ acquired calls := by simp [hsplit]
      obtain ⟨hcall, hsession, hfresh⟩ := mem_acquired hmem
      rw [List.map_append]
      exact setUpSession_setUp (hsession.trans (h _ hcall)) hfresh hs)
    (fun pre session post s e hsplit _ he => by
      have hmem : session ∈ acquired calls := by simp [hsplit]
      obtain ⟨hcall, hsession, hfresh⟩ := mem_acquired hmem
      rw [(setUpSession_ok_iff hfresh s).mpr (hsession.trans (h _ hcall))] at he
      cases he)
    ⟨by simp, rfl⟩
  rcases hrun with ⟨_, hs⟩ | ⟨_, _, hfalse⟩
  · have hcalls : (acquired calls).map Prod.fst = calls := by simp [acquired, Function.comp_def]
    rw [hcalls] at hs
    exact hs
  · exact hfalse.elim

/-- `Init` returns unless a session that was not acquired is used. -/
theorem providerInit_cases (verified : Bool) (calls : List SetupCalls) :
    (verified = false ∧ (providerInit verified calls).1 = .ok false) ∨
    (verified = true ∧ (∀ c ∈ calls, c.acquire = true) ∧
      (providerInit verified calls).1 = .ok true ∧
      SetUp calls (providerInit verified calls).2) ∨
    (verified = true ∧ (¬ ∀ c ∈ calls, c.acquire = true) ∧
      (providerInit verified calls).1 = .error .undefined) := by
  have hiff := setUpSessions_ok_iff calls
  have herror := Faults.forEach_error (f := setUpSession) (l := acquired calls) (s := {})
    (E := (· = .undefined)) (fun _ => True)
    (fun session hsession s _ => ⟨setUpSession_error (mem_acquired hsession).2.2 s, trivial⟩) trivial
  have hsetUp := @setUpSessions_setUp calls
  unfold providerInit
  cases verified with
  | false => exact Or.inl ⟨rfl, rfl⟩
  | true =>
    apply Or.inr
    rw [if_neg (by simp)]
    split <;> rename_i heq <;> rw [heq] at hiff herror hsetUp
    · refine Or.inr ⟨rfl, fun h => ?_, ?_⟩
      · cases hiff.mpr h
      · rw [herror _ rfl]
    · have hall := hiff.mp rfl
      exact Or.inl ⟨rfl, hall, rfl, hsetUp hall⟩

end Psych
