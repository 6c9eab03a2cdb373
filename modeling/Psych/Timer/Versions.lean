import Psych.Timer.Sound

/-!
# What conditional fetching owes the sessions

A timer query asks for a file only if it is newer than `last_filetime`. So what a session
misses when a version is published stays lost until the file changes. A session misses a row
when it is muted on its turn for the row, or when RFA threw before: the query goes on and takes
the response as done. Everything else has been submitted (`published_versions`).
-/

namespace Psych

variable {platform : Platform} {config : Config}

/-- It is defined what the refresh did. -/
def completed (config : Config) : Obs → Prop
  | .refresh _ _ resource table calls provider =>
    (sendRefresh config resource table calls provider).1 ≠ .error .undefined
  | _ => True

/-- While the process is defined every refresh has been completed. -/
theorem completed_invariant (platform : Platform) (config : Config) :
    FeedInvariant platform config fun r p =>
      r ≠ .error .undefined → ∀ o ∈ p.log, completed config o where
  quiet := by
    intro p p' r _ hq h _ o ho
    obtain ⟨new, hlog, hnew⟩ := hq.log
    rw [hlog] at ho
    rcases List.mem_append.mp ho with ho | ho
    · have hno := hnew o ho
      cases o with
      | refresh => exact absurd trivial hno
      | request | header | done | accept | sleep | retriesExceeded => trivial
    · exact h (by simp) o ho
  message := by
    intro message q h hne o ho
    have hcases : Handled platform config message q (handleMessage platform config message q) :=
      handleMessage_cases message q
    cases hcases with
    | faulted e _ _ log =>
      rw [log] at ho
      rcases List.mem_cons.mp ho with rfl | ho
      · trivial
      · exact h (by simp) o ho
    | rejected _ _ log =>
      rw [log] at ho
      rcases List.mem_cons.mp ho with rfl | ho
      · trivial
      · exact h (by simp) o ho
    | undefined _ _ fst => exact absurd fst hne
    | accepted _ published _ _ log =>
      rw [log] at ho
      rcases List.mem_cons.mp ho with rfl | ho
      · trivial
      rcases List.mem_cons.mp ho with rfl | ho
      · exact published
      rcases List.mem_cons.mp ho with rfl | ho
      · trivial
      · exact h (by simp) o ho
  caught := fun hne h _ => h fun he => hne (Except.error.inj he)
  deliver := fun _ _ h _ => h (by simp)

/-- Every mapped row of the refresh has reached every session: it was dropped if the session
was muted on its turn, and is in the history of the session otherwise; or RFA threw before. -/
def reachedSessions (config : Config) (resource : Resource) (table : Table) (calls : RefreshCalls)
    (provider : Provider) (p : State) : Prop :=
  let refresh := (sendRefresh config resource table calls provider).2
  ∀ k row, table.rows[k]? = some row → mapped resource row →
    ∀ i < p.provider.sessions.length, refresh.interrupted k i ∨
      ∃ turn ∈ refresh.provider.turns, turn.session = i ∧ turn.message.row = k ∧
        (turn.delivery = .dropped ∨ ∃ s token, p.provider.sessions[i]? = some s ∧
          .item turn.message token ∈ s.history)

theorem Sound.reached {p : State} {c : Nat} {transfer : Transfer} {resource : Resource}
    {table : Table} {calls : RefreshCalls} {provider : Provider} (h : Sound platform config p)
    (hmem : .refresh c transfer resource table calls provider ∈ p.log)
    (hcompleted : completed config (.refresh c transfer resource table calls provider)) :
    reachedSessions config resource table calls provider p := by
  obtain ⟨_, hready, hlength, hdone⟩ := h.accounted _ hmem
  intro k row hrow hmapped i hi
  rcases sendRefresh_delivered hready hcompleted hrow hmapped (hlength ▸ hi) with
    hinterrupted | ⟨turn, hturn, hsession, hindex, hdelivery⟩
  · exact Or.inl hinterrupted
  · refine Or.inr ⟨turn, hturn, hsession, hindex, ?_⟩
    cases hd : turn.delivery with
    | threw => exact absurd hd hdelivery
    | dropped => exact Or.inl rfl
    | submitted =>
      obtain ⟨s, token, hs, hitem⟩ := hdone turn hturn hd
      exact Or.inr ⟨s, token, hsession ▸ hs, hitem⟩

/-- In every run after `Init`, the file time a connection asks with is that of a response, and
the mapped rows of each accepted response with this file time have reached the sessions. -/
theorem published_versions {sessions : Nat} {feed : Feed} (h : feed.state.Fresh config sessions)
    (inputs : List FeedInput) (halive : (feed.run platform config inputs).1 = .ok ()) (c : Nat)
    (hfetched : ((feed.run platform config inputs).2.state.connections c).lastFiletime ≠ 0) :
    let p := (feed.run platform config inputs).2.state
    (∃ transfer connection lastFiletime, .done c transfer connection lastFiletime ∈ p.log ∧
      reachesTable config transfer connection ∧
      transfer.filetime = (p.connections c).lastFiletime) ∧
    ∀ transfer connection lastFiletime, .done c transfer connection lastFiletime ∈ p.log →
      transfer.filetime = (p.connections c).lastFiletime →
      accepts platform config transfer connection →
      ∃ engineVersion calls provider,
        .refresh c transfer connection.resource
          (scannedTable platform connection.data engineVersion) calls provider ∈ p.log ∧
        reachedSessions config connection.resource
          (scannedTable platform connection.data engineVersion) calls provider p := by
  have hsound := run_sound platform inputs h.sound
  have hstart : ∀ o ∈ feed.state.log, completed config o := by
    rw [h.log]
    simp
  have hcompleted := run_invariant (completed_invariant platform config) inputs
    (fun _ => hstart) (by rw [halive]; simp)
  refine ⟨hsound.lastFiletime c hfetched, ?_⟩
  intro transfer connection lastFiletime hmem _ haccepts
  obtain ⟨engineVersion, calls, provider, hrefresh⟩ := hsound.accounted _ hmem haccepts
  exact ⟨engineVersion, calls, provider, hrefresh,
    hsound.reached hrefresh (hcompleted _ hrefresh)⟩

def loginSuccess : FeedInput := .events [(0, .loginResponse .open .ok {})]

/-- A tick with a new file, whose rows session 0 takes or does not. -/
def newFile (submit : Bool) : FeedInput :=
  .tick { query :=
    { t0 := 1336080000000000
      t1 := 1336080000000000
      rounds := fun _ =>
        { first := [.data 0 sampleBody]
          order := [0]
          report := fun _ =>
            { transfer := sampleTransfer
              calls := fun _ => { session := fun _ => { submit := submit } } } } } }

/-- Session 0 logs in, and then a version is published. -/
def publishedRun (submit : Bool) : Except Fault Unit × Feed :=
  sampleFeed.run boostPlatform sampleConfig [loginSuccess, newFile submit]

/-- A version is published, and then session 0 logs in. -/
def lateLoginRun : Except Fault Unit × Feed :=
  sampleFeed.run boostPlatform sampleConfig [newFile true, loginSuccess]

/-- A response that was looked at was accepted. -/
def acceptedDone : Obs → Bool
  | .done _ transfer connection _ =>
    (respond boostPlatform sampleConfig transfer connection (fun _ => 0) []).1 == .ok true
  | _ => true

set_option maxRecDepth 10000 in
/-- The rows of the version the connection asks with have reached session 0. -/
theorem sample_published_versions :
    ∃ (transfer : Transfer) (connection : Connection) (engineVersion : Text)
      (calls : RefreshCalls) (provider : Provider),
      transfer.filetime = ((publishedRun true).2.state.connections 0).lastFiletime ∧
      .refresh 0 transfer connection.resource
        (scannedTable boostPlatform connection.data engineVersion) calls provider ∈
          (publishedRun true).2.state.log ∧
      reachedSessions sampleConfig connection.resource
        (scannedTable boostPlatform connection.data engineVersion) calls provider
        (publishedRun true).2.state := by
  obtain ⟨halive, hfetched, hall⟩ : (publishedRun true).1 = .ok () ∧
      ((publishedRun true).2.state.connections 0).lastFiletime ≠ 0 ∧
      ∀ o ∈ (publishedRun true).2.state.log, acceptedDone o = true := by
    unfold publishedRun newFile
    rw [sampleBody_eq]
    decide +kernel
  unfold publishedRun at halive hfetched hall ⊢
  obtain ⟨⟨transfer, connection, lastFiletime, hmem, _, hfiletime⟩, hreached⟩ :=
    published_versions sample_fresh [loginSuccess, newFile true] halive 0 hfetched
  have haccepts : accepts boostPlatform sampleConfig transfer connection :=
    (respond_accepts_iff _ _ _ _ _ _).mp (beq_iff_eq.mp (hall _ hmem))
  obtain ⟨engineVersion, calls, provider, h⟩ :=
    hreached transfer connection lastFiletime hmem hfiletime haccepts
  exact ⟨transfer, connection, engineVersion, calls, provider, hfiletime, h⟩

/-- Every mapped row of every accepted response with the file time of a connection has been
submitted on every session that is not muted now. -/
def versionsSubmitted (platform : Platform) (config : Config) (p : State) : Prop :=
  ∀ c transfer connection lastFiletime, .done c transfer connection lastFiletime ∈ p.log →
    (p.connections c).lastFiletime ≠ 0 → transfer.filetime = (p.connections c).lastFiletime →
    accepts platform config transfer connection →
    ∀ k row, (scannedTable platform connection.data []).rows[k]? = some row →
      mapped connection.resource row → ∀ s ∈ p.provider.sessions, s.isMuted = false →
        ∃ message token, message.row = k ∧ .item message token ∈ s.history

/-- The first row of the response is mapped, and the response was accepted. -/
def owedRow (p : State) : Obs → Bool
  | .done c transfer connection _ =>
    transfer.filetime == (p.connections c).lastFiletime && transfer.filetime != 0 &&
    (respond boostPlatform sampleConfig transfer connection (fun _ => 0) []).1 == .ok true &&
    (scannedTable boostPlatform connection.data []).rows[0]?.any fun row =>
      (connection.resource.items.lookup row.1).isSome
  | _ => false

/-- The session is not muted, and nothing was ever submitted on it. -/
def Session.idle (s : Session) : Bool :=
  !s.isMuted && s.history.all fun o => match o with | .item .. => false | _ => true

theorem not_versionsSubmitted {p : State}
    (h : (p.log.any (owedRow p) && p.provider.sessions.any Session.idle) = true) :
    ¬ versionsSubmitted boostPlatform sampleConfig p := by
  obtain ⟨howed, hmissed⟩ := Bool.and_eq_true_iff.mp h
  intro h
  obtain ⟨o, ho, howed⟩ := List.any_eq_true.mp howed
  obtain ⟨s, hs, hmissed⟩ := List.any_eq_true.mp hmissed
  cases o with
  | done c transfer connection lastFiletime =>
    simp only [owedRow, Bool.and_eq_true, beq_iff_eq, bne_iff_ne] at howed
    obtain ⟨⟨⟨hfiletime, hne⟩, haccepted⟩, hmapped⟩ := howed
    simp only [Session.idle, Bool.and_eq_true, Bool.not_eq_true', List.all_eq_true] at hmissed
    cases hrow : (scannedTable boostPlatform connection.data []).rows[0]? with
    | none =>
      rw [hrow] at hmapped
      cases hmapped
    | some row =>
      rw [hrow] at hmapped
      obtain ⟨message, token, _, hitem⟩ := h c transfer connection lastFiletime ho
        (hfiletime ▸ hne) hfiletime ((respond_accepts_iff _ _ _ _ _ _).mp haccepted) 0 row hrow
        hmapped s hs hmissed.1
      exact absurd (hmissed.2 _ hitem) (by simp)
  | request | header | refresh | accept | sleep | retriesExceeded => cases howed

/-- A session that logs in after the version was published, and one whose submission threw. -/
theorem unmuted_sessions_miss_version :
    ¬ versionsSubmitted boostPlatform sampleConfig lateLoginRun.2.state ∧
      ¬ versionsSubmitted boostPlatform sampleConfig (publishedRun false).2.state := by
  unfold lateLoginRun publishedRun newFile
  rw [sampleBody_eq]
  exact ⟨not_versionsSubmitted (by decide +kernel), not_versionsSubmitted (by decide +kernel)⟩

end Psych
