import Psych.Rfa.Provider
import Mathlib.Algebra.Order.BigOperators.Group.List
import Mathlib.Algebra.Order.Group.Nat
import Mathlib.Algebra.Ring.Nat

/-!
# Walks of the session tables

`psychSessionTable` and `psychSessionPerformanceTable` have a row for every session of every
instance in `global_list_`. A walk keeps two iterators, into the list and into the sessions of
one instance, and each call hunts for the row after the one it returns.

The hunt increments the session iterator before it looks at it, also when it has just been set
to the first session of the next instance. So a first session is skipped wherever the walk
enters an instance, and an instance without sessions sends the iterator past its end
(`hunt_spec`). `session_walk_exact_iff` says where this does not show.
-/

namespace Psych

/-- `psych_t`, as far as SNMP looks at it. -/
structure Plugin where
  pluginId : Text
  /-- The unique instance number. -/
  instance_ : Nat
  /-- `provider_`, where `Init` has created it. -/
  provider : Option Provider := none

/-- `provider_->sessions_`. -/
def Plugin.sessions (plugin : Plugin) : Except Fault (List Session) :=
  match plugin.provider with
  | none => .error .undefined
  | some provider => .ok provider.sessions

/-- A row: the three index values, and the objects it is about. -/
structure DataPoint where
  psychSessionPluginId : Text
  psychSessionPluginUniqueInstance : Nat
  psychSessionUniqueInstance : Nat
  plugin : Plugin
  session : Session

def dataPoint (plugin : Plugin) (session : Session) : DataPoint :=
  ⟨plugin.pluginId, plugin.instance_, session.instanceId, plugin, session⟩

/-! ## The cursor -/

/-- The iterators of `snmp_context_t`. Each is what it has still to go through; the empty list is
the end. -/
structure SessionCursor where
  psychIt : List Plugin
  sessionIt : List Session

/-- The loop that looks for the first instance with a session. -/
def findFirst : List Plugin → Except Fault SessionCursor
  | [] => .ok ⟨[], []⟩
  | plugin :: plugins =>
    match plugin.sessions with
    | .error e => .error e
    | .ok [] => findFirst plugins
    | .ok (session :: sessions) => .ok ⟨plugin :: plugins, session :: sessions⟩

/-- The loop that hunts for the next valid node, from an instance and the rest of its sessions. -/
def hunt : List Plugin → List Session → Except Fault SessionCursor
  -- neither iterator may be at its end
  | [], _ => .error .undefined
  | _ :: _, [] => .error .undefined
  | plugin :: plugins, _ :: session :: sessions => .ok ⟨plugin :: plugins, session :: sessions⟩
  | [_], [_] => .ok ⟨[], []⟩
  | _ :: next :: plugins, [_] =>
    match next.sessions with
    | .error e => .error e
    | .ok sessions => hunt (next :: plugins) sessions

abbrev GetNextDataPoint := SessionCursor → Except Fault (Option (DataPoint × SessionCursor))

abbrev GetFirstDataPoint := List Plugin → Except Fault (Option (DataPoint × SessionCursor))

/-- `get_next_data_point`; the null pointer is `none`. -/
def getNextDataPoint : GetNextDataPoint := fun cursor =>
  match cursor.psychIt with
  | [] => .ok none
  | plugin :: plugins =>
    match plugin.sessions with
    | .error e => .error e
    | .ok _ =>
      match cursor.sessionIt with
      | [] => .ok none
      | session :: sessions =>
        match hunt (plugin :: plugins) (session :: sessions) with
        | .error e => .error e
        | .ok cursor => .ok (some (dataPoint plugin session, cursor))

/-- `get_first_data_point`, which passes on to `get_next_data_point`. -/
def getFirstDataPoint (next : GetNextDataPoint) : GetFirstDataPoint := fun plugins =>
  if plugins.isEmpty then .ok none
  else
    match findFirst plugins with
    | .error e => .error e
    | .ok cursor =>
      match cursor.psychIt with
      -- `*context->psych_it` at the end of the list
      | [] => .error .undefined
      | plugin :: _ =>
        match plugin.sessions with
        | .error e => .error e
        | .ok _ => if cursor.sessionIt.isEmpty then .ok none else next cursor

def psychSessionTableGetNextDataPoint : GetNextDataPoint := getNextDataPoint

def psychSessionTableGetFirstDataPoint : GetFirstDataPoint :=
  getFirstDataPoint psychSessionTableGetNextDataPoint

def psychSessionPerformanceTableGetNextDataPoint : GetNextDataPoint := getNextDataPoint

def psychSessionPerformanceTableGetFirstDataPoint : GetFirstDataPoint :=
  getFirstDataPoint psychSessionPerformanceTableGetNextDataPoint

/-! ## Walks -/

/-- `get_next_data_point` yields the points and then null. -/
inductive Continues (next : GetNextDataPoint) : SessionCursor → List DataPoint → Prop
  | done {cursor : SessionCursor} (h : next cursor = .ok none) : Continues next cursor []
  | more {cursor cursor' : SessionCursor} {point : DataPoint} {points : List DataPoint}
      (h : next cursor = .ok (some (point, cursor'))) (rest : Continues next cursor' points) :
      Continues next cursor (point :: points)

/-- A walk yields the points, and no step of it is undefined. -/
inductive Walks (first : GetFirstDataPoint) (next : GetNextDataPoint) (plugins : List Plugin) :
    List DataPoint → Prop
  | empty (h : first plugins = .ok none) : Walks first next plugins []
  | start {point : DataPoint} {cursor : SessionCursor} {points : List DataPoint}
      (h : first plugins = .ok (some (point, cursor))) (rest : Continues next cursor points) :
      Walks first next plugins (point :: points)

/-- The rows of an instance; without a provider it has none. -/
def Plugin.points (plugin : Plugin) : List DataPoint :=
  match plugin.sessions with
  | .error _ => []
  | .ok sessions => sessions.map (dataPoint plugin)

/-- Every pair of an instance and one of its sessions, in list order. -/
def allPoints (plugins : List Plugin) : List DataPoint := plugins.flatMap Plugin.points

/-- There is no instance, or the last one has a session and the others have a provider without
sessions. -/
def onlyLastHasSessions (plugins : List Plugin) : Prop :=
  plugins = [] ∨ ∃ empties last session sessions, plugins = empties ++ [last] ∧
    (∀ plugin ∈ empties, plugin.sessions = .ok []) ∧ last.sessions = .ok (session :: sessions)

/-! ## What the loops do -/

theorem points_of_sessions {plugin : Plugin} {sessions : List Session}
    (h : plugin.sessions = .ok sessions) : plugin.points = sessions.map (dataPoint plugin) := by
  unfold Plugin.points
  rw [h]

theorem findFirst_skip {empties : List Plugin} (h : ∀ plugin ∈ empties, plugin.sessions = .ok [])
    (plugins : List Plugin) : findFirst (empties ++ plugins) = findFirst plugins := by
  induction empties with
  | nil => rfl
  | cons plugin empties ih =>
    rw [List.cons_append, findFirst, h plugin List.mem_cons_self]
    exact ih fun plugin hp => h plugin (List.mem_cons_of_mem _ hp)

theorem findFirst_cons {plugin : Plugin} {session : Session} {sessions : List Session}
    (h : plugin.sessions = .ok (session :: sessions)) (plugins : List Plugin) :
    findFirst (plugin :: plugins) = .ok ⟨plugin :: plugins, session :: sessions⟩ := by
  rw [findFirst, h]

/-- Where the first loop ends: past a list without sessions, or at an instance with some. -/
theorem findFirst_spec {plugins : List Plugin} {cursor : SessionCursor}
    (h : findFirst plugins = .ok cursor) : cursor.psychIt = [] ∨
    ∃ empties plugin rest session sessions, plugins = empties ++ plugin :: rest ∧
      (∀ plugin ∈ empties, plugin.sessions = .ok []) ∧
      plugin.sessions = .ok (session :: sessions) ∧
      cursor = ⟨plugin :: rest, session :: sessions⟩ := by
  induction plugins with
  | nil =>
    cases h
    exact Or.inl rfl
  | cons plugin plugins ih =>
    rw [findFirst] at h
    cases hs : plugin.sessions with
    | error e =>
      rw [hs] at h
      cases h
    | ok sessions =>
      rw [hs] at h
      cases sessions with
      | cons session sessions =>
        cases h
        exact Or.inr ⟨[], plugin, plugins, session, sessions, rfl, by simp, hs, rfl⟩
      | nil =>
        rcases ih h with hend | ⟨empties, found, rest, session, sessions, rfl, hempty, hrest⟩
        · exact Or.inl hend
        · refine Or.inr ⟨plugin :: empties, found, rest, session, sessions, rfl, ?_, hrest⟩
          exact List.forall_mem_cons.mpr ⟨hs, hempty⟩

/-- The iterators point at a session, or are at their ends. -/
def SessionCursor.Valid (cursor : SessionCursor) : Prop :=
  cursor = ⟨[], []⟩ ∨ ∃ plugin plugins session sessions known,
    cursor = ⟨plugin :: plugins, session :: sessions⟩ ∧ plugin.sessions = .ok known

/-- The instances still to be entered all have sessions. -/
def SessionCursor.Dense (cursor : SessionCursor) : Prop :=
  ∀ plugin ∈ cursor.psychIt.tail, 0 < plugin.points.length

/-- The rows still to come: all but the first of each instance still to be entered. -/
def SessionCursor.left (cursor : SessionCursor) : Nat :=
  cursor.sessionIt.length + (cursor.psychIt.tail.map fun plugin => plugin.points.length - 1).sum

/-- A hunt that is defined takes one row off, and has entered instances with sessions only. -/
theorem hunt_spec {plugins : List Plugin} {plugin : Plugin} {session : Session}
    {sessions known : List Session} {cursor : SessionCursor} (hknown : plugin.sessions = .ok known)
    (h : hunt (plugin :: plugins) (session :: sessions) = .ok cursor) :
    cursor.Valid ∧ cursor.left + 1 = SessionCursor.left ⟨plugin :: plugins, session :: sessions⟩ ∧
      (cursor.Dense → SessionCursor.Dense ⟨plugin :: plugins, session :: sessions⟩) := by
  induction plugins generalizing plugin session sessions known with
  | nil =>
    cases sessions with
    | nil =>
      rw [hunt] at h
      cases h
      exact ⟨Or.inl rfl, rfl, fun _ => by simp [SessionCursor.Dense]⟩
    | cons session' sessions =>
      rw [hunt] at h
      cases h
      refine ⟨Or.inr ⟨_, _, _, _, _, rfl, hknown⟩, ?_, fun hdense => hdense⟩
      simp [SessionCursor.left]
  | cons next plugins ih =>
    cases sessions with
    | cons session' sessions =>
      rw [hunt] at h
      cases h
      refine ⟨Or.inr ⟨_, _, _, _, _, rfl, hknown⟩, ?_, fun hdense => hdense⟩
      simp only [SessionCursor.left, List.length_cons]
      omega
    | nil =>
      rw [hunt] at h
      cases hnext : next.sessions with
      | error e =>
        rw [hnext] at h
        cases h
      | ok sessions =>
        rw [hnext] at h
        dsimp only at h
        cases sessions with
        | nil =>
          rw [hunt] at h
          cases h
        | cons first sessions =>
          obtain ⟨hvalid, hleft, hdense⟩ := ih hnext h
          have hcount : next.points.length = sessions.length + 1 := by
            rw [points_of_sessions hnext, List.length_map, List.length_cons]
          refine ⟨hvalid, ?_, fun hd => ?_⟩
          · rw [hleft]
            simp only [SessionCursor.left, List.tail_cons, List.map_cons, List.sum_cons, hcount,
              List.length_cons, List.length_nil]
            omega
          · exact List.forall_mem_cons.mpr ⟨by omega, hdense hd⟩

/-- A walk that goes on from a valid cursor yields the rows that are left, and no more. -/
theorem continues_length {cursor : SessionCursor} {points : List DataPoint}
    (h : Continues getNextDataPoint cursor points) (hvalid : cursor.Valid) :
    points.length = cursor.left ∧ cursor.Dense := by
  induction h with
  | done hnext =>
    rcases hvalid with rfl | ⟨plugin, plugins, session, sessions, known, rfl, hknown⟩
    · exact ⟨rfl, by simp [SessionCursor.Dense]⟩
    · simp only [getNextDataPoint, hknown] at hnext
      split at hnext <;> cases hnext
  | more hnext _ ih =>
    rcases hvalid with rfl | ⟨plugin, plugins, session, sessions, known, rfl, hknown⟩
    · cases hnext
    · simp only [getNextDataPoint, hknown] at hnext
      cases hhunt : hunt (plugin :: plugins) (session :: sessions) with
      | error e =>
        rw [hhunt] at hnext
        cases hnext
      | ok cursor' =>
        rw [hhunt] at hnext
        cases hnext
        obtain ⟨hvalid', hleft, hdense⟩ := hunt_spec hknown hhunt
        obtain ⟨hlen, hdense'⟩ := ih hvalid'
        exact ⟨by rw [List.length_cons, hlen, hleft], hdense hdense'⟩

/-- In the last instance every session is found. -/
theorem continues_last {plugin : Plugin} {known : List Session}
    (hknown : plugin.sessions = .ok known) (session : Session) (sessions : List Session) :
    Continues getNextDataPoint ⟨[plugin], session :: sessions⟩
      ((session :: sessions).map (dataPoint plugin)) := by
  induction sessions generalizing session with
  | nil =>
    have hnext : getNextDataPoint ⟨[plugin], [session]⟩ =
        .ok (some (dataPoint plugin session, ⟨[], []⟩)) := by
      simp [getNextDataPoint, hknown, hunt]
    exact .more hnext (.done rfl)
  | cons next sessions ih =>
    have hnext : getNextDataPoint ⟨[plugin], session :: next :: sessions⟩ =
        .ok (some (dataPoint plugin session, ⟨[plugin], next :: sessions⟩)) := by
      simp [getNextDataPoint, hknown, hunt]
    exact .more hnext (ih next)

/-! ## Exact walks -/

/-- The first loop found a session: the walk is one from there. -/
theorem getFirst_of_findFirst {plugins rest : List Plugin} {plugin : Plugin}
    {session : Session} {sessions : List Session} (next : GetNextDataPoint)
    (hfind : findFirst plugins = .ok ⟨plugin :: rest, session :: sessions⟩)
    (hsessions : plugin.sessions = .ok (session :: sessions)) (hne : plugins ≠ []) :
    getFirstDataPoint next plugins = next ⟨plugin :: rest, session :: sessions⟩ := by
  unfold getFirstDataPoint
  rw [if_neg (by simpa using hne), hfind]
  simp [hsessions]

theorem walks_of_onlyLast {plugins : List Plugin} (h : onlyLastHasSessions plugins) :
    Walks (getFirstDataPoint getNextDataPoint) getNextDataPoint plugins (allPoints plugins) := by
  rcases h with rfl | ⟨empties, last, session, sessions, rfl, hempty, hlast⟩
  · exact .empty rfl
  have hpoints : allPoints (empties ++ [last]) = (session :: sessions).map (dataPoint last) := by
    have hnil : empties.flatMap Plugin.points = [] := by
      rw [List.flatMap_eq_nil_iff]
      intro plugin hp
      rw [points_of_sessions (hempty plugin hp)]
      rfl
    unfold allPoints
    rw [List.flatMap_append, hnil, List.nil_append, List.flatMap_singleton,
      points_of_sessions hlast]
  have hfind := (findFirst_skip hempty [last]).trans (findFirst_cons hlast [])
  have hfirst := getFirst_of_findFirst getNextDataPoint hfind hlast (by simp)
  rw [hpoints]
  cases continues_last hlast session sessions with
  | more hnext rest => exact .start (hfirst.trans hnext) rest

theorem onlyLast_of_walks {plugins : List Plugin}
    (h : Walks (getFirstDataPoint getNextDataPoint) getNextDataPoint plugins
      (allPoints plugins)) : onlyLastHasSessions plugins := by
  by_cases hne : plugins = []
  · exact Or.inl hne
  right
  -- the first loop must have found a session
  have hfirst : ∃ r, getFirstDataPoint getNextDataPoint plugins = .ok r := by
    generalize hpoints : allPoints plugins = points at h
    cases h with
    | empty h => exact ⟨_, h⟩
    | start h => exact ⟨_, h⟩
  obtain ⟨r, hr⟩ := hfirst
  cases hfind : findFirst plugins with
  | error e =>
    simp [getFirstDataPoint, hne, hfind] at hr
  | ok cursor =>
    rcases findFirst_spec hfind with hend | ⟨empties, plugin, rest, session, sessions, hsplit,
      hempty, hsessions, rfl⟩
    · simp [getFirstDataPoint, hne, hfind, hend] at hr
    have heq := getFirst_of_findFirst getNextDataPoint hfind hsessions hne
    have hcontinues : Continues getNextDataPoint ⟨plugin :: rest, session :: sessions⟩
        (allPoints plugins) := by
      generalize allPoints plugins = points at h
      cases h with
      | empty h => exact .done (heq.symm.trans h)
      | start h rest => exact .more (heq.symm.trans h) rest
    obtain ⟨hlength, hdense⟩ := continues_length hcontinues
      (Or.inr ⟨_, _, _, _, _, rfl, hsessions⟩)
    refine ⟨empties, plugin, session, sessions, ?_, hempty, hsessions⟩
    cases rest with
    | nil => exact hsplit
    | cons next rest =>
      -- the first session of `next` is not among the rows
      exfalso
      have hsum : ∀ plugins : List Plugin,
          (plugins.map fun plugin => plugin.points.length - 1).sum ≤ (allPoints plugins).length := by
        intro plugins
        rw [allPoints, List.length_flatMap]
        exact List.sum_le_sum fun plugin _ => Nat.sub_le _ _
      have hnext := hdense next (by simp)
      have hcount := congrArg List.length (points_of_sessions hsessions)
      have hrest := hsum rest
      rw [hsplit] at hlength
      simp only [allPoints, List.flatMap_append, List.flatMap_cons, List.length_append,
        SessionCursor.left, List.tail_cons, List.map_cons, List.sum_cons] at hlength hrest
      rw [List.length_map] at hcount
      omega

/-- A walk of the session tables yields every pair of an instance and a session once, in list
order and without an undefined step, exactly when there is no instance, or the last instance has
a session and every other one has a provider without sessions. -/
theorem session_walk_exact_iff (plugins : List Plugin) :
    (Walks psychSessionTableGetFirstDataPoint psychSessionTableGetNextDataPoint plugins
        (allPoints plugins) ∧
      Walks psychSessionPerformanceTableGetFirstDataPoint
        psychSessionPerformanceTableGetNextDataPoint plugins (allPoints plugins)) ↔
      onlyLastHasSessions plugins :=
  ⟨fun h => onlyLast_of_walks h.1, fun h => ⟨walks_of_onlyLast h, walks_of_onlyLast h⟩⟩

/-- An instance with one session. -/
def samplePlugin (n : Nat) : Plugin where
  pluginId := "psychPlugin".toList
  instance_ := n
  provider := some (.create 1 [])

/-- The walk over two instances with one session each misses the session of the second. -/
theorem second_session_missed :
    ¬ (Walks psychSessionTableGetFirstDataPoint psychSessionTableGetNextDataPoint
        [samplePlugin 0, samplePlugin 1] (allPoints [samplePlugin 0, samplePlugin 1]) ∧
      Walks psychSessionPerformanceTableGetFirstDataPoint
        psychSessionPerformanceTableGetNextDataPoint [samplePlugin 0, samplePlugin 1]
        (allPoints [samplePlugin 0, samplePlugin 1])) := by
  rintro ⟨h, _⟩
  obtain ⟨point, cursor, hfirst, hlast⟩ : ∃ point cursor,
      psychSessionTableGetFirstDataPoint [samplePlugin 0, samplePlugin 1] =
        .ok (some (point, cursor)) ∧ cursor = ⟨[], []⟩ := ⟨_, _, rfl, rfl⟩
  generalize hpoints : allPoints [samplePlugin 0, samplePlugin 1] = points at h
  have htwo : points.length = 2 := by rw [← hpoints]; rfl
  cases h with
  | empty hnone =>
    rw [hfirst] at hnone
    cases hnone
  | start hsome rest =>
    rw [hfirst] at hsome
    cases hsome
    subst hlast
    -- the cursor is at its end after the first row
    cases rest with
    | done => cases htwo
    | more hmore => cases hmore

end Psych
