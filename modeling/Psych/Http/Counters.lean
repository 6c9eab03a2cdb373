import Psych.Http.Verdict

/-!
# What a response counts

`OnHttpResponse` counts the status of a response, in its class and for 200 and 304 by itself, and
sets the clock drifts. Whatever becomes of the response, no other counter changes
(`respond_stats`). A response whose null content type is logged is not counted.
-/

namespace Psych

/-- The counter is a clock drift, which is set and not counted. -/
def Counter.drift : Counter → Bool
  | .httpdClockDrift | .httpClockDrift | .psychClockDrift => true
  | _ => false

/-- The counter of the class of a status. -/
def statusClass (responseCode : Int) : Option Counter :=
  if 100 ≤ responseCode ∧ responseCode ≤ 199 then some .http1xxReceived
  else if 200 ≤ responseCode ∧ responseCode ≤ 299 then some .http2xxReceived
  else if 300 ≤ responseCode ∧ responseCode ≤ 399 then some .http3xxReceived
  else if 400 ≤ responseCode ∧ responseCode ≤ 499 then some .http4xxReceived
  else if 500 ≤ responseCode ∧ responseCode ≤ 599 then some .http5xxReceived
  else none

/-- The counter of the status itself. -/
def statusOwn (responseCode : Int) : Option Counter :=
  if responseCode = 200 then some .http200Received
  else if responseCode = 304 then some .http304Received
  else none

/-- How much a response with the status counts on a counter. -/
def statusCount (responseCode : Int) (c : Counter) : Nat :=
  (if statusClass responseCode = some c then 1 else 0) +
    (if statusOwn responseCode = some c then 1 else 0)

/-- How much a response counts on a counter. -/
def responseCount (platform : Platform) (transfer : Transfer) (c : Counter) : Nat :=
  if logsNull platform transfer then 0 else statusCount transfer.responseCode c

def HttpState.bumpOption (s : HttpState) (counter : Option Counter) : HttpState :=
  match counter with
  | none => s
  | some counter => s.bump counter

theorem Stats.bump_apply (stats : Stats) (counter c : Counter) :
    stats.bump counter c = stats c + BitVec.ofNat 32 (if c = counter then 1 else 0) := by
  unfold Stats.bump Stats.add
  split <;> simp

theorem Stats.set_apply_of_not_drift {counter c : Counter} (hcounter : counter.drift = true)
    (hc : c.drift = false) (stats : Stats) (value : Int) : stats.set counter value c = stats c := by
  unfold Stats.set
  rw [if_neg]
  rintro rfl
  rw [hcounter] at hc
  cases hc

variable {platform : Platform} {config : Config} {transfer : Transfer} {c : Counter}

theorem bumpOption_stats (s : HttpState) (counter : Option Counter) (c : Counter) :
    (s.bumpOption counter).stats c =
      s.stats c + BitVec.ofNat 32 (if counter = some c then 1 else 0) := by
  cases counter with
  | none => simp [HttpState.bumpOption]
  | some counter =>
    change s.stats.bump counter c = _
    rw [Stats.bump_apply]
    simp only [Option.some.injEq, eq_comm]

theorem bumpOption_bumpOption_stats (s : HttpState) (counter counter' : Option Counter)
    (c : Counter) :
    ((s.bumpOption counter).bumpOption counter').stats c =
      s.stats c + BitVec.ofNat 32 ((if counter = some c then 1 else 0) +
        (if counter' = some c then 1 else 0)) := by
  rw [bumpOption_stats, bumpOption_stats, BitVec.add_assoc, ← BitVec.ofNat_add]

theorem countStatus_eq {responseCode : Int} (h : responseCode ≠ 200) (s : HttpState) :
    s.countStatus responseCode =
      (s.bumpOption (statusClass responseCode)).bumpOption (statusOwn responseCode) := by
  unfold HttpState.countStatus statusOwn
  have hclass : (if 100 ≤ responseCode ∧ responseCode ≤ 199 then s.bump .http1xxReceived
      else if 200 ≤ responseCode ∧ responseCode ≤ 299 then s.bump .http2xxReceived
      else if 300 ≤ responseCode ∧ responseCode ≤ 399 then s.bump .http3xxReceived
      else if 400 ≤ responseCode ∧ responseCode ≤ 499 then s.bump .http4xxReceived
      else if 500 ≤ responseCode ∧ responseCode ≤ 599 then s.bump .http5xxReceived
      else s) = s.bumpOption (statusClass responseCode) := by
    unfold statusClass
    split_ifs <;> rfl
  dsimp only
  rw [hclass, if_neg h]
  split <;> rfl

theorem storeFiletime_stats (s : HttpState) (hc : c.drift = false) :
    (storeFiletime config transfer s).2.stats c = s.stats c := by
  unfold storeFiletime
  dsimp only
  split
  · rfl
  · have hset : (s.set .httpClockDrift (httpOffset transfer s.connection)).stats c = s.stats c :=
      Stats.set_apply_of_not_drift rfl hc _ _
    split
    · exact hset
    · exact hset

theorem recordHttpdDrift_stats (s : HttpState) (hc : c.drift = false) :
    s.recordHttpdDrift.stats c = s.stats c := by
  unfold HttpState.recordHttpdDrift
  split
  · rfl
  · exact Stats.set_apply_of_not_drift rfl hc _ _

theorem extractTable_stats (s : HttpState) (hc : c.drift = false) :
    (extractTable platform transfer s).2.stats c = s.stats c := by
  unfold extractTable
  split
  · rfl
  · rfl
  · unfold finishResponse
    have hdrift : ∀ s : HttpState, s.recordPsychDrift.stats c = s.stats c := by
      intro s
      unfold HttpState.recordPsychDrift
      split
      · rfl
      · exact Stats.set_apply_of_not_drift rfl hc _ _
    dsimp only
    split <;> exact hdrift _

/-- What a response counts depends on its status alone, once it is logged. -/
theorem respond_stats (platform : Platform) (config : Config) (transfer : Transfer)
    (connection : Connection) (stats : Stats) (engineVersion : Text) {c : Counter}
    (hc : c.drift = false) :
    (respond platform config transfer connection stats engineVersion).2.stats c =
      stats c + BitVec.ofNat 32 (responseCount platform transfer c) := by
  unfold respond onHttpResponse responseCount
  split
  · exact (BitVec.add_zero _).symm
  split
  · rename_i hcode
    rw [countStatus_eq hcode]
    exact bumpOption_bumpOption_stats _ _ _ c
  · rename_i hcode
    have hok : transfer.responseCode = 200 := by simpa using hcode
    have hcounted : ∀ s : HttpState, ((s.bump .http200Received).bump .http2xxReceived).stats c =
        s.stats c + BitVec.ofNat 32 (statusCount transfer.responseCode c) := by
      intro s
      rw [hok, statusCount, Nat.add_comm]
      exact bumpOption_bumpOption_stats s (some .http200Received) (some .http2xxReceived) c
    dsimp only
    split
    · exact hcounted _
    · split
      · unfold inspectPayload
        dsimp only
        split
        · rw [extractTable_stats _ hc, storeFiletime_stats _ hc, recordHttpdDrift_stats _ hc]
          exact hcounted _
        · rw [storeFiletime_stats _ hc, recordHttpdDrift_stats _ hc]
          exact hcounted _
      · exact hcounted _

end Psych
