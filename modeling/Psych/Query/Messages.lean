import Psych.Query.Query

/-!
# What one message does to a query

`handleMessage` looks at the response of a connection and then does one of four things
(`handleMessage_cases`): the response faults, it is rejected, its table is handed over and that
is undefined, or its table is published and the connection is no longer pending. All that the
theorems about queries need of a message is said there.
-/

namespace Psych

variable {platform : Platform} {config : Config}

/-- The result of the response a message is about. -/
def Query.verdict (platform : Platform) (config : Config) (q : Query) (message : Nat × Report) :
    Except Fault Bool × HttpState :=
  respond platform config message.2.transfer (q.state.connections message.1) q.state.stats
    q.engineVersion

/-- The entry that the response of a message leaves. -/
def Query.doneObs (platform : Platform) (config : Config) (q : Query) (message : Nat × Report) :
    Obs :=
  .done message.1 message.2.transfer (q.state.connections message.1)
    (q.verdict platform config message).2.connection.lastFiletime

/-- The entry that the publication of a message's table leaves. -/
def Query.refreshObs (platform : Platform) (config : Config) (q : Query)
    (message : Nat × Report) : Obs :=
  .refresh message.1 message.2.transfer (q.state.connections message.1).resource
    (q.verdict platform config message).2.table message.2.calls q.state.provider

/-- The publication of a message's table. -/
def Query.refresh (platform : Platform) (config : Config) (q : Query) (message : Nat × Report) :
    Except Fault Unit × Publish :=
  sendRefresh config (q.state.connections message.1).resource
    (q.verdict platform config message).2.table message.2.calls q.state.provider

theorem respond_resource (platform : Platform) (config : Config) (transfer : Transfer)
    (connection : Connection) (stats : Stats) (engineVersion : Text) :
    (respond platform config transfer connection stats engineVersion).2.connection.resource =
      connection.resource := by
  by_cases hreach : reachesTable config transfer connection
  · rw [(respond_of_reaches hreach platform stats engineVersion).2.1]
  · rw [(respond_of_not_reaches hreach platform stats engineVersion).2]

theorem stored_resource (platform : Platform) (config : Config) (message : Nat × Report)
    (q : Query) :
    ((q.store message.1 message.2.transfer
      (q.verdict platform config message).2).state.connections message.1).resource =
        (q.state.connections message.1).resource := by
  simp only [Query.store, State.observe, State.setConnection, if_true]
  exact respond_resource _ _ _ _ _ _

/-- An entry that a response leaves. -/
def Obs.ofResponse : Obs → Prop
  | .done .. | .refresh .. | .accept .. => True
  | _ => False

/-- The query after a message, in each of the four cases. -/
inductive Handled (platform : Platform) (config : Config) (message : Nat × Report) (q : Query) :
    Except Fault Unit × Query → Prop where
  | faulted (r : Except Fault Unit × Query) (e : Fault)
      (verdict : (q.verdict platform config message).1 = .error e)
      (fst : r.1 = .error e)
      (log : r.2.state.log = q.doneObs platform config message :: q.state.log)
      (provider : r.2.state.provider = q.state.provider)
      (pending : r.2.pending = q.pending) :
      Handled platform config message q r
  | rejected (r : Except Fault Unit × Query)
      (verdict : (q.verdict platform config message).1 = .ok false)
      (fst : r.1 = .ok ())
      (log : r.2.state.log = q.doneObs platform config message :: q.state.log)
      (provider : r.2.state.provider = q.state.provider)
      (pending : r.2.pending = q.pending) :
      Handled platform config message q r
  | undefined (r : Except Fault Unit × Query)
      (verdict : (q.verdict platform config message).1 = .ok true)
      (cause : (q.refresh platform config message).1 = .error .undefined ∨ message.1 ∉ q.pending)
      (fst : r.1 = .error .undefined)
      (log : r.2.state.log = q.refreshObs platform config message ::
        q.doneObs platform config message :: q.state.log)
      (provider : r.2.state.provider = (q.refresh platform config message).2.provider)
      (pending : r.2.pending = q.pending) :
      Handled platform config message q r
  | accepted (r : Except Fault Unit × Query)
      (verdict : (q.verdict platform config message).1 = .ok true)
      (published : (q.refresh platform config message).1 ≠ .error .undefined)
      (mem : message.1 ∈ q.pending)
      (fst : r.1 = .ok ())
      (log : r.2.state.log = .accept message.1 message.2.transfer ::
        q.refreshObs platform config message :: q.doneObs platform config message :: q.state.log)
      (provider : r.2.state.provider = (q.refresh platform config message).2.provider)
      (pending : r.2.pending = q.pending.erase message.1) :
      Handled platform config message q r

theorem caught_eq_ok_iff (r : Except Fault Unit) : caught r = .ok () ↔ r ≠ .error .undefined := by
  unfold caught
  split <;> simp_all

theorem caught_cases (r : Except Fault Unit) :
    (r = .error .undefined ∧ caught r = .error .undefined) ∨
      (r ≠ .error .undefined ∧ caught r = .ok ()) := by
  unfold caught
  split <;> simp_all

theorem handleMessage_cases (message : Nat × Report) (q : Query) :
    Handled platform config message q (handleMessage platform config message q) := by
  have hresource := stored_resource platform config message q
  unfold handleMessage
  dsimp only
  cases hverdict : (respond platform config message.2.transfer (q.state.connections message.1)
      q.state.stats q.engineVersion).1 with
  | error e => exact .faulted _ e hverdict rfl rfl rfl rfl
  | ok accepted =>
    cases accepted with
    | false => exact .rejected _ hverdict rfl rfl rfl rfl
    | true =>
      dsimp only
      unfold Query.verdict at hresource
      rw [hresource]
      split
      · rename_i e q' hpublish
        obtain ⟨hcaught, rfl⟩ := Prod.mk.inj hpublish
        rcases caught_cases (q.refresh platform config message).1 with ⟨hundefined, hc⟩ | ⟨_, hc⟩
        · cases hc.symm.trans hcaught
          exact .undefined _ hverdict (Or.inl hundefined) rfl rfl rfl rfl
        · cases hc.symm.trans hcaught
      · rename_i q' hpublish
        obtain ⟨hcaught, rfl⟩ := Prod.mk.inj hpublish
        have hne : (q.refresh platform config message).1 ≠ .error .undefined :=
          (caught_eq_ok_iff _).mp hcaught
        unfold Query.accept
        by_cases hmem : message.1 ∈ q.pending
        · rw [if_pos (by exact hmem)]
          exact .accepted _ hverdict hne hmem rfl rfl rfl rfl
        · rw [if_neg (by exact hmem)]
          exact .undefined _ hverdict (Or.inr hmem) rfl rfl rfl rfl

theorem accept_connections (c : Nat) (transfer : Transfer) (q : Query) :
    (q.accept c transfer).2.state.connections = q.state.connections := by
  unfold Query.accept
  split <;> rfl

theorem accept_engineVersion (c : Nat) (transfer : Transfer) (q : Query) :
    (q.accept c transfer).2.engineVersion = q.engineVersion := by
  unfold Query.accept
  split <;> rfl

theorem accept_provider (c : Nat) (transfer : Transfer) (q : Query) :
    (q.accept c transfer).2.state.provider = q.state.provider := by
  unfold Query.accept
  split <;> rfl

theorem accept_of_mem {c : Nat} {q : Query} (h : c ∈ q.pending) (transfer : Transfer) :
    (q.accept c transfer).1 = .ok () := by
  unfold Query.accept
  rw [if_pos h]

/-- A message changes its own connection alone. -/
theorem handleMessage_connections (platform : Platform) (config : Config)
    (message : Nat × Report) (q : Query) :
    (handleMessage platform config message q).2.state.connections = fun c =>
      if c = message.1 then (q.verdict platform config message).2.connection
      else q.state.connections c := by
  unfold handleMessage
  dsimp only
  cases (respond platform config message.2.transfer (q.state.connections message.1)
      q.state.stats q.engineVersion).1 with
  | error e => rfl
  | ok accepted =>
    cases accepted with
    | false => rfl
    | true =>
      dsimp only
      split
      · rename_i heq
        exact congrArg (fun r => r.2.state.connections) heq.symm
      · rename_i q' heq
        rw [accept_connections]
        exact congrArg (fun r => r.2.state.connections) heq.symm

end Psych
