import Psych.Library.Runs
import Mathlib.Data.List.Basic

/-!
# The list of instances during SNMP walks

A walk of an SNMP table holds a shared lock on `global_list_lock_` and an iterator into
`global_list_`, from `get_first_data_point` to `free_loop_context`. The constructor and the
destructor of `psych_t` change the list after the statement

    boost::unique_lock<boost::shared_mutex> (global_list_lock_);

which in C++ declares a local lock with the name `global_list_lock_`. It is default constructed
and owns no mutex (`UniqueLock.declared`), so nothing keeps the change from happening during
a walk.

* `instances_stable_iff`: the list is stable during walks exactly when no instance is constructed
  or destroyed while a walk holds its lock.
* `stable_of_exclusive`: writers that wait for the exclusive lock would always meet that.
-/

namespace Psych

/-! ## Locks -/

/-- `boost::shared_mutex`. -/
structure SharedMutex where
  /-- How many shared locks are held. -/
  shared : Nat := 0
  exclusive : Bool := false
deriving DecidableEq

def SharedMutex.lockShared (m : SharedMutex) : SharedMutex := { m with shared := m.shared + 1 }

def SharedMutex.unlockShared (m : SharedMutex) : SharedMutex := { m with shared := m.shared - 1 }

/-- The exclusive lock would be granted. -/
def SharedMutex.free (m : SharedMutex) : Prop := m.shared = 0 ∧ m.exclusive = false

instance (m : SharedMutex) : Decidable m.free := by unfold SharedMutex.free; infer_instance

/-- `boost::unique_lock`, and whether it has a mutex and owns it. -/
structure UniqueLock where
  owns : Bool := false

/-- The lock the statement in the constructor and the destructor declares. -/
def UniqueLock.declared : UniqueLock := {}

/-- The mutex while a lock made for it exists. -/
def UniqueLock.hold (lock : UniqueLock) (m : SharedMutex) : SharedMutex :=
  if lock.owns then { m with exclusive := true } else m

/-! ## Instances and walks -/

/-- `snmp_context_t`. -/
structure Walk where
  /-- The address of the context. -/
  id : Nat
  /-- The instance the iterator refers to; `none` is the end of the list. -/
  psychIt : Option Nat
  /-- The list when the context was made; not in the source. -/
  snapshot : List Nat
deriving DecidableEq

structure InstanceList where
  /-- `global_list_lock_`. -/
  mutex : SharedMutex := {}
  /-- `global_list_`. -/
  instances : List Nat := []
  /-- `snmp_context_t::global_list`. -/
  walks : List Walk := []

/-- `psych_t`. -/
def InstanceList.construct (i : Nat) (s : InstanceList) : InstanceList :=
  { s with mutex := UniqueLock.declared.hold s.mutex, instances := s.instances ++ [i] }

/-- `~psych_t`. -/
def InstanceList.destruct (i : Nat) (s : InstanceList) : InstanceList :=
  { s with mutex := UniqueLock.declared.hold s.mutex, instances := s.instances.filter (· ≠ i) }

/-- The element after another one. -/
def following (l : List Nat) (i : Nat) : Option Nat := (l.dropWhile (· ≠ i)).tail.head?

/-- `++psych_it`, `n` times. -/
def advance (l : List Nat) : Nat → Option Nat → Option Nat
  | 0, it => it
  | n + 1, it => advance l n (it.bind (following l))

/-- `get_next_data_point`, with the number of times it advances the iterator. -/
def InstanceList.getNext (id n : Nat) (s : InstanceList) : InstanceList :=
  { s with walks := s.walks.map fun walk =>
      if walk.id = id then { walk with psychIt := advance s.instances n walk.psychIt } else walk }

/-- `get_first_data_point`: a context without an instance to show is destroyed again. -/
def InstanceList.getFirst (id n : Nat) (s : InstanceList) : InstanceList :=
  if s.instances.isEmpty then s
  else
    { s with
      mutex := s.mutex.lockShared
      walks := ⟨id, s.instances.head?, s.instances⟩ :: s.walks }.getNext id n

/-- `free_loop_context`: the context is destroyed with its lock. -/
def InstanceList.free (id : Nat) (s : InstanceList) : InstanceList :=
  { s with mutex := s.mutex.unlockShared, walks := s.walks.eraseP (·.id = id) }

/-! ## Runs -/

inductive ListStep where
  | construct (i : Nat)
  | destruct (i : Nat)
  | getFirst (id n : Nat)
  | getNext (id n : Nat)
  | free (id : Nat)
deriving DecidableEq

/-- Objects and contexts have their own addresses, and are used while they exist. -/
def InstanceList.step (s : InstanceList) : ListStep → InstanceList
  | .construct i => if i ∈ s.instances then s else s.construct i
  | .destruct i => if i ∈ s.instances then s.destruct i else s
  | .getFirst id n => if id ∈ s.walks.map Walk.id then s else s.getFirst id n
  | .getNext id n => s.getNext id n
  | .free id => if id ∈ s.walks.map Walk.id then s.free id else s

/-! ## Stability -/

/-- The list is as it was when the walk began, and the iterator refers to an element. -/
def Walk.stable (walk : Walk) (instances : List Nat) : Prop :=
  walk.snapshot = instances ∧ ∀ i, walk.psychIt = some i → i ∈ instances

def InstanceList.Stable (s : InstanceList) : Prop := ∀ walk ∈ s.walks, walk.stable s.instances

/-- An instance is constructed or destroyed only where the exclusive lock would be granted. -/
def InstanceList.undisturbed (s : InstanceList) : ListStep → Prop
  | .construct i => i ∉ s.instances → s.mutex.free
  | .destruct i => i ∈ s.instances → s.mutex.free
  | _ => True

structure InstanceList.Sound (s : InstanceList) : Prop where
  stable : s.Stable
  /-- Every context holds a shared lock, and nobody the exclusive one. -/
  shared : s.mutex.shared = s.walks.length
  exclusive : s.mutex.exclusive = false

theorem following_mem {l : List Nat} {i j : Nat} (h : following l i = some j) : j ∈ l :=
  (List.dropWhile_sublist _).subset (List.mem_of_mem_tail (List.mem_of_head? h))

theorem advance_mem {l : List Nat} {n : Nat} {it : Option Nat} (h : ∀ i, it = some i → i ∈ l) :
    ∀ i, advance l n it = some i → i ∈ l := by
  induction n generalizing it with
  | zero => exact h
  | succ n ih =>
    refine ih fun i hi => ?_
    obtain ⟨j, _, hj⟩ := Option.bind_eq_some_iff.mp hi
    exact following_mem hj

theorem InstanceList.getNext_sound {s : InstanceList} (h : s.Sound) (id n : Nat) :
    (s.getNext id n).Sound := by
  refine ⟨fun walk hwalk => ?_, by rw [InstanceList.getNext, List.length_map]; exact h.shared,
    h.exclusive⟩
  obtain ⟨old, hold, rfl⟩ := List.mem_map.mp hwalk
  obtain ⟨hsnapshot, hit⟩ := h.stable old hold
  split
  · exact ⟨hsnapshot, advance_mem hit⟩
  · exact ⟨hsnapshot, hit⟩

theorem InstanceList.getFirst_sound {s : InstanceList} (h : s.Sound) (id n : Nat) :
    (s.getFirst id n).Sound := by
  unfold InstanceList.getFirst
  split
  · exact h
  · apply InstanceList.getNext_sound
    refine ⟨fun walk hwalk => ?_, ?_, h.exclusive⟩
    · rcases List.mem_cons.mp hwalk with rfl | hwalk
      · exact ⟨rfl, fun i hi => List.mem_of_head? hi⟩
      · exact h.stable walk hwalk
    · change s.mutex.shared + 1 = s.walks.length + 1
      rw [h.shared]

theorem InstanceList.free_sound {s : InstanceList} (h : s.Sound) {id : Nat}
    (hid : id ∈ s.walks.map Walk.id) : (s.free id).Sound := by
  obtain ⟨walk, hwalk, rfl⟩ := List.mem_map.mp hid
  refine ⟨fun other hother => h.stable other (List.mem_of_mem_eraseP hother), ?_, h.exclusive⟩
  change s.mutex.shared - 1 = (s.walks.eraseP _).length
  rw [List.length_eraseP_of_mem hwalk (by simp), h.shared]

/-- Without walks the list may change. -/
theorem InstanceList.sound_of_free {s t : InstanceList} (h : s.Sound) (hfree : s.mutex.free)
    (hmutex : t.mutex = s.mutex) (hwalks : t.walks = s.walks) : t.Sound := by
  have hnil : s.walks = [] := List.length_eq_zero_iff.mp (h.shared ▸ hfree.1)
  refine ⟨?_, by rw [hmutex, hwalks]; exact h.shared, by rw [hmutex]; exact h.exclusive⟩
  intro walk hwalk
  rw [hwalks, hnil] at hwalk
  cases hwalk

theorem InstanceList.step_sound (s : InstanceList) (step : ListStep) (h : s.Sound)
    (hfree : s.undisturbed step) : (s.step step).Sound := by
  cases step with
  | construct i =>
    change (if i ∈ s.instances then s else s.construct i).Sound
    split
    · exact h
    · rename_i hi
      exact InstanceList.sound_of_free h (hfree hi) rfl rfl
  | destruct i =>
    change (if i ∈ s.instances then s.destruct i else s).Sound
    split
    · rename_i hi
      exact InstanceList.sound_of_free h (hfree hi) rfl rfl
    · exact h
  | getFirst id n =>
    change (if id ∈ s.walks.map Walk.id then s else s.getFirst id n).Sound
    split
    · exact h
    · exact InstanceList.getFirst_sound h id n
  | getNext id n => exact InstanceList.getNext_sound h id n
  | free id =>
    change (if id ∈ s.walks.map Walk.id then s.free id else s).Sound
    split
    · rename_i hid
      exact InstanceList.free_sound h hid
    · exact h

/-- A walk that is open when the list changes is no longer stable. -/
theorem InstanceList.free_of_changed {s t : InstanceList} (h : s.Sound) (hstable : t.Stable)
    (hwalks : t.walks = s.walks) (hne : t.instances ≠ s.instances) : s.mutex.free := by
  refine ⟨?_, h.exclusive⟩
  rw [h.shared, List.length_eq_zero_iff]
  by_contra hopen
  obtain ⟨walk, hwalk⟩ := List.exists_mem_of_ne_nil _ hopen
  have hnew := (hstable walk (hwalks ▸ hwalk)).1
  exact hne (hnew.symm.trans (h.stable walk hwalk).1)

theorem InstanceList.undisturbed_of_stable (s : InstanceList) (step : ListStep) (h : s.Sound)
    (hstable : (s.step step).Stable) : s.undisturbed step := by
  cases step with
  | construct i =>
    intro hi
    replace hstable : (if i ∈ s.instances then s else s.construct i).Stable := hstable
    rw [if_neg hi] at hstable
    refine InstanceList.free_of_changed h hstable rfl fun heq => hi ?_
    rw [← heq]
    exact List.mem_append_right _ (List.mem_singleton_self i)
  | destruct i =>
    intro hi
    replace hstable : (if i ∈ s.instances then s.destruct i else s).Stable := hstable
    rw [if_pos hi] at hstable
    refine InstanceList.free_of_changed h hstable rfl fun heq => ?_
    rw [← heq] at hi
    simp [InstanceList.destruct] at hi
  | getFirst | getNext | free => trivial

theorem instances_start : InstanceList.Sound {} :=
  ⟨fun _ hwalk => absurd hwalk List.not_mem_nil, rfl, rfl⟩

/-- In a run of constructions, destructions and walks the list is stable during every walk, and
no iterator refers to a removed instance, exactly when no instance is constructed or destroyed
while a walk holds its shared lock. -/
theorem instances_stable_iff (steps : List ListStep) :
    (∀ s ∈ steps.scanl InstanceList.step {}, s.Stable) ↔
      Runs.Guarded InstanceList.step InstanceList.undisturbed {} steps :=
  Runs.forall_scanl_iff_guarded_of_invariant (fun _ h => h.stable) InstanceList.step_sound
    InstanceList.undisturbed_of_stable instances_start steps

/-- The second instance is destroyed when a walk has read the first one. -/
theorem destroyed_during_walk :
    ¬ ∀ s ∈ [ListStep.construct 0, .construct 1, .getFirst 0 1, .destruct 1].scanl
      InstanceList.step {}, s.Stable := by
  intro h
  have hstable := h ([ListStep.construct 0, .construct 1, .getFirst 0 1, .destruct 1].foldl
    InstanceList.step {}) (by simp)
  have hit := (hstable ⟨0, some 1, [0, 1]⟩ (by decide)).2 1 rfl
  revert hit
  decide

/-! ## Exclusive writers -/

/-- A step that waits where it is to change the list and the exclusive lock is not granted. -/
def InstanceList.exclusiveStep (s : InstanceList) (step : ListStep) : InstanceList :=
  match step with
  | .construct _ | .destruct _ => if s.mutex.free then s.step step else s
  | _ => s.step step

/-- With writers that take the exclusive lock the list is stable in every run. -/
theorem stable_of_exclusive (steps : List ListStep) :
    ∀ s ∈ steps.scanl InstanceList.exclusiveStep {}, s.Stable := by
  intro s hs
  refine (Runs.forall_scanl_of_invariant InstanceList.Sound (fun s step h => ?_) instances_start
    steps s hs).stable
  cases step with
  | construct i | destruct i =>
    unfold InstanceList.exclusiveStep
    dsimp only
    split
    · rename_i hfree
      exact InstanceList.step_sound s _ h fun _ => hfree
    · exact h
  | getFirst id n => exact InstanceList.step_sound s (.getFirst id n) h trivial
  | getNext id n => exact InstanceList.step_sound s (.getNext id n) h trivial
  | free id => exact InstanceList.step_sound s (.free id) h trivial

end Psych
