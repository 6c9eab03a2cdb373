import Psych.Library.Faults
import Psych.Library.Runs
import Mathlib.Data.Finset.Card

/-!
# SNMP agents

`snmp_agent_t` counts its objects in `ref_count_`. The first one starts Net-SNMP and the thread
of the message pump, and the last one to be cleared is to stop both. The thread, the pump object
and the sockets that signal it are members of the object that started them, so shutdown works
exactly when that object is the last one (`agents_safe_iff`).

Calls of Net-SNMP and of the socket library succeed.
-/

namespace Psych

/-- What the agents do to the pump thread and to Net-SNMP. -/
inductive AgentEvent where
  /-- The exit socket of the thread was written. -/
  | signal (agent : Nat)
  | join (agent : Nat)
  /-- `snmp_shutdown`, and the pump threads that were running then. -/
  | shutdown (pumps : Finset Nat)
  /-- An object was destroyed while the thread it started was running. -/
  | destroyedUnderPump (agent : Nat)

structure Agents where
  /-- `ref_count_`. -/
  refCount : Int := 0
  /-- The objects that exist. -/
  agents : Finset Nat := ∅
  /-- The agents with exit sockets and a thread that can be joined. -/
  owners : Finset Nat := ∅
  /-- The running pump threads, named after the agents that started them. -/
  pumps : Finset Nat := ∅
  /-- What was done, newest first; not in the source. -/
  log : List AgentEvent := []

/-! ## The functions -/

/-- `Run`, called by the constructor. -/
def Agents.run (i : Nat) (s : Agents) : Agents :=
  -- an instance is already running
  if 0 < s.refCount then { s with refCount := s.refCount + 1 }
  else
    { s with
      refCount := s.refCount + 1
      owners := insert i s.owners
      pumps := insert i s.pumps }

def Agents.construct (i : Nat) (s : Agents) : Agents :=
  { s.run i with agents := insert i (s.run i).agents }

/-- The thread of an agent that has one is signalled and joined, and its sockets are closed. -/
def Agents.stopPump (i : Nat) (s : Agents) : Agents :=
  if i ∈ s.owners then
    { s with
      owners := s.owners.erase i
      pumps := s.pumps.erase i
      log := .join i :: .signal i :: s.log }
  else s

/-- `Clear`: only the last agent stops anything, and only a thread of its own. -/
def Agents.clear (i : Nat) (s : Agents) : Agents :=
  if s.refCount = 0 then s
  else if s.refCount ≠ 1 then { s with refCount := s.refCount - 1 }
  else
    let stopped := { s with refCount := s.refCount - 1 }.stopPump i
    { stopped with log := .shutdown stopped.pumps :: stopped.log }

/-- The members of an object are destroyed. -/
def Agents.release (i : Nat) (s : Agents) : Agents :=
  { s with
    agents := s.agents.erase i
    owners := s.owners.erase i
    log := if i ∈ s.pumps then .destroyedUnderPump i :: s.log else s.log }

def Agents.destruct (i : Nat) (s : Agents) : Agents := (s.clear i).release i

/-! ## Runs -/

inductive AgentStep where
  | construct (i : Nat)
  | destruct (i : Nat)
deriving DecidableEq

/-- An object is constructed once, and destroyed while it exists. -/
def Agents.step (s : Agents) : AgentStep → Agents
  | .construct i => if i ∈ s.agents then s else s.construct i
  | .destruct i => if i ∈ s.agents then s.destruct i else s

/-! ## Safe shutdown -/

/-- `snmp_shutdown` is called when a thread has just been signalled and joined and none is
running. -/
def shutdownRule : AgentEvent → List AgentEvent → Prop
  | .shutdown pumps, older => pumps = ∅ ∧ ∃ i rest, older = .join i :: .signal i :: rest
  | _, _ => True

structure Agents.Safe (s : Agents) : Prop where
  /-- The pump runs exactly while an agent exists. -/
  pump : s.pumps.Nonempty ↔ s.agents.Nonempty
  single : s.pumps.card ≤ 1
  shutdown : Faults.Chronicle shutdownRule s.log
  destroyed : ∀ i, .destroyedUnderPump i ∉ s.log

/-- The agent that started the running pump is destroyed as the last one. -/
def Agents.ownerLast (s : Agents) : AgentStep → Prop
  | .construct _ => True
  | .destruct i => i ∈ s.agents → i ∈ s.pumps → s.agents = {i}

/-- What holds of the agents as long as the owner of the pump is there. -/
structure Agents.Sound (s : Agents) : Prop where
  count : s.refCount = s.agents.card
  owner : (s.agents = ∅ ∧ s.owners = ∅ ∧ s.pumps = ∅) ∨
    ∃ i ∈ s.agents, s.owners = {i} ∧ s.pumps = {i}
  shutdown : Faults.Chronicle shutdownRule s.log
  destroyed : ∀ i, .destroyedUnderPump i ∉ s.log

theorem Agents.Sound.safe {s : Agents} (h : s.Sound) : s.Safe := by
  refine ⟨?_, ?_, h.shutdown, h.destroyed⟩
  · rcases h.owner with ⟨hagents, _, hpumps⟩ | ⟨i, hi, _, hpumps⟩
    · simp [hagents, hpumps]
    · simp [hpumps, Finset.nonempty_of_ne_empty (Finset.ne_empty_of_mem hi)]
  · rcases h.owner with ⟨_, _, hpumps⟩ | ⟨i, _, _, hpumps⟩ <;> simp [hpumps]

theorem agents_start : Agents.Sound {} :=
  ⟨rfl, Or.inl ⟨rfl, rfl, rfl⟩, trivial, fun _ => List.not_mem_nil⟩

theorem Agents.construct_sound {s : Agents} (h : s.Sound) {i : Nat} (hi : i ∉ s.agents) :
    (s.construct i).Sound := by
  have hcard := Finset.card_insert_of_notMem hi
  rcases h.owner with ⟨hagents, howners, hpumps⟩ | ⟨j, hj, howners, hpumps⟩
  · have hcount : s.refCount = 0 := by rw [h.count, hagents]; rfl
    have hrun : s.run i =
        { s with refCount := s.refCount + 1, owners := {i}, pumps := {i} } := by
      simp [Agents.run, hcount, howners, hpumps]
    unfold Agents.construct
    rw [hrun]
    refine ⟨?_, Or.inr ⟨i, Finset.mem_insert_self i _, rfl, rfl⟩, h.shutdown, h.destroyed⟩
    change s.refCount + 1 = (insert i s.agents).card
    rw [hcard, h.count]
    rfl
  · have hpos : 0 < s.agents.card := Finset.card_pos.mpr ⟨j, hj⟩
    have hcount := h.count
    have hrun : s.run i = { s with refCount := s.refCount + 1 } :=
      if_pos (by omega : 0 < s.refCount)
    unfold Agents.construct
    rw [hrun]
    refine ⟨?_, Or.inr ⟨j, Finset.mem_insert_of_mem hj, howners, hpumps⟩, h.shutdown, h.destroyed⟩
    change s.refCount + 1 = (insert i s.agents).card
    omega

/-- An agent that is not the last one only counts itself off. -/
theorem Agents.clear_of_others {s : Agents} (h : s.Sound) {i j : Nat} (hi : i ∈ s.agents)
    (hj : j ∈ s.agents) (hne : i ≠ j) : s.clear i = { s with refCount := s.refCount - 1 } := by
  have hcard : 1 < s.agents.card := Finset.one_lt_card.mpr ⟨i, hi, j, hj, hne⟩
  have hcount := h.count
  unfold Agents.clear
  rw [if_neg (by omega), if_pos (by omega)]

/-- The owner of the pump stops it, as the last agent. -/
theorem Agents.clear_of_last {s : Agents} (h : s.Sound) {i : Nat} (hlast : s.agents = {i}) :
    s.clear i =
      { s with
        refCount := 0
        owners := ∅
        pumps := ∅
        log := .shutdown ∅ :: .join i :: .signal i :: s.log } := by
  have hcount : s.refCount = 1 := by rw [h.count, hlast]; rfl
  rcases h.owner with ⟨hagents, _⟩ | ⟨j, hj, howners, hpumps⟩
  · rw [hlast] at hagents
    exact absurd hagents (Finset.singleton_ne_empty i)
  · rw [hlast, Finset.mem_singleton] at hj
    subst hj
    simp [Agents.clear, Agents.stopPump, hcount, howners, hpumps]

theorem Agents.destruct_sound {s : Agents} (h : s.Sound) {i : Nat} (hi : i ∈ s.agents)
    (hlast : i ∈ s.pumps → s.agents = {i}) : (s.destruct i).Sound := by
  unfold Agents.destruct Agents.release
  rcases h.owner with ⟨hagents, _⟩ | ⟨j, hj, howners, hpumps⟩
  · rw [hagents] at hi
    cases hi
  by_cases hij : i = j
  · subst hij
    have honly := hlast (by rw [hpumps]; exact Finset.mem_singleton_self i)
    rw [Agents.clear_of_last h honly]
    refine ⟨by simp [honly], Or.inl ⟨by simp [honly], rfl, rfl⟩, ?_, ?_⟩
    · exact ⟨⟨rfl, i, s.log, rfl⟩, trivial, trivial, h.shutdown⟩
    · simpa using h.destroyed
  · have hout : i ∉ s.pumps := by rw [hpumps, Finset.mem_singleton]; exact hij
    have hcard := Finset.card_erase_add_one hi
    have hcount := h.count
    rw [Agents.clear_of_others h hi hj hij]
    refine ⟨?_, Or.inr ⟨j, Finset.mem_erase.mpr ⟨Ne.symm hij, hj⟩, ?_, hpumps⟩, ?_, ?_⟩
    · change s.refCount - 1 = (s.agents.erase i).card
      omega
    · change s.owners.erase i = {j}
      rw [howners, Finset.erase_eq_of_notMem (by simpa using hij)]
    · simpa [hout] using h.shutdown
    · simpa [hout] using h.destroyed

theorem Agents.step_sound (s : Agents) (step : AgentStep) (h : s.Sound)
    (hlast : s.ownerLast step) : (s.step step).Sound := by
  cases step with
  | construct i =>
    change (if i ∈ s.agents then s else s.construct i).Sound
    split
    · exact h
    · rename_i hi
      exact Agents.construct_sound h hi
  | destruct i =>
    change (if i ∈ s.agents then s.destruct i else s).Sound
    split
    · rename_i hi
      exact Agents.destruct_sound h hi (hlast hi)
    · exact h

/-- An owner that is destroyed before another agent is destroyed under its pump. -/
theorem Agents.ownerLast_of_safe (s : Agents) (step : AgentStep) (h : s.Sound)
    (hsafe : (s.step step).Safe) : s.ownerLast step := by
  cases step with
  | construct i => trivial
  | destruct i =>
    intro hi hpump
    by_contra hno
    obtain ⟨j, hj, hne⟩ : ∃ j ∈ s.agents, i ≠ j := by
      by_contra hall
      push Not at hall
      exact hno (Finset.eq_singleton_iff_unique_mem.mpr ⟨hi, fun j hj => (hall j hj).symm⟩)
    apply hsafe.destroyed i
    change _ ∈ (if i ∈ s.agents then s.destruct i else s).log
    unfold Agents.destruct Agents.release
    rw [if_pos hi, Agents.clear_of_others h hi hj hne]
    simp [hpump]

/-- Shutdown is safe throughout a run of constructions and destructions exactly when no agent
that started the running pump is destroyed while another agent exists. -/
theorem agents_safe_iff (steps : List AgentStep) :
    (∀ s ∈ steps.scanl Agents.step {}, s.Safe) ↔
      Runs.Guarded Agents.step Agents.ownerLast {} steps :=
  Runs.forall_scanl_iff_guarded_of_invariant (fun _ => Agents.Sound.safe) Agents.step_sound
    Agents.ownerLast_of_safe agents_start steps

/-- Two agents, destroyed in the order of their construction. -/
theorem first_agent_destroyed_first :
    ¬ ∀ s ∈ [AgentStep.construct 0, .construct 1, .destruct 0, .destruct 1].scanl Agents.step {},
      s.Safe := by
  intro h
  have hsafe := h
    ([AgentStep.construct 0, .construct 1, .destruct 0].foldl Agents.step {}) (by simp)
  apply hsafe.destroyed 0
  simp [Agents.step, Agents.construct, Agents.run, Agents.destruct, Agents.clear, Agents.release]

end Psych
