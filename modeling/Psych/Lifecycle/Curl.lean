import Psych.Library.Runs
import Mathlib.Data.Finset.Card

/-!
# libcurl over the instances of a process

All `psych_t` objects of a process share libcurl's global state through `curl_ref_count_`:
`Init` adds one and initialises libcurl if it is the first, `Clear` takes one off and cleans up
if it is the last. `Clear` does not ask whether `Init` was called. It runs after a failed
`Init`, in `Destroy`, and in the destructor, also for an instance that was cleared before.

* `Curl.Balanced`: the count is the number of instances that may use libcurl, and libcurl is
  cleaned up when there is none.
* `curl_balanced_iff`: a run keeps the balance exactly when every `Clear` meets an instance
  whose `Init` has started, and no `Init` meets such an instance.
-/

namespace Psych

/-- libcurl's global functions. -/
inductive CurlGlobal where
  | init
  | cleanup
deriving DecidableEq

/-- The process, as far as `curl_ref_count_` goes. A `LONG` count does not wrap: there are fewer
than `2 ^ 31` objects. -/
structure Curl where
  /-- `curl_ref_count_`. -/
  refCount : Int := 0
  /-- The last global function that was called. -/
  global : Option CurlGlobal := none
  /-- The objects that were constructed and not destroyed. -/
  instances : Finset Nat := ∅
  /-- The instances whose `Init` has started and that were not cleared since; not in the
  source. -/
  started : Finset Nat := ∅
  /-- For every call of `curl_global_cleanup`, the instances that were started then; not in
  the source. -/
  cleanups : List (Finset Nat) := []

/-! ## The functions -/

/-- The part of `Init` that counts: whatever fails later, it has counted. -/
def Curl.init (i : Nat) (s : Curl) : Curl :=
  { s with
    refCount := s.refCount + 1
    global := if s.refCount = 0 then some .init else s.global
    started := insert i s.started }

/-- The part of `Clear` that counts. -/
def Curl.clear (i : Nat) (s : Curl) : Curl :=
  { s with
    refCount := s.refCount - 1
    global := if s.refCount = 1 then some .cleanup else s.global
    started := s.started.erase i
    cleanups := if s.refCount = 1 then s.started.erase i :: s.cleanups else s.cleanups }

/-- `~psych_t` clears, whatever was cleared before. -/
def Curl.destruct (i : Nat) (s : Curl) : Curl :=
  { s.clear i with instances := (s.clear i).instances.erase i }

/-! ## Runs -/

/-- What happens to an instance. `clear` is the call of `Clear` in `init`, after `Init` failed,
or in `Destroy`. -/
inductive LifeStep where
  | construct (i : Nat)
  | init (i : Nat)
  | clear (i : Nat)
  | destruct (i : Nat)
deriving DecidableEq

/-- An object that does not exist takes no step. -/
def Curl.step (s : Curl) : LifeStep → Curl
  | .construct i => { s with instances := insert i s.instances }
  | .init i => if i ∈ s.instances then s.init i else s
  | .clear i => if i ∈ s.instances then s.clear i else s
  | .destruct i => if i ∈ s.instances then s.destruct i else s

/-- `main`: the object is constructed, `Run` calls `Init`, the main loop and `Destroy`, and the
object is destroyed. -/
def applicationRun (i : Nat) : List LifeStep := [.construct i, .init i, .clear i, .destruct i]

/-! ## Balance -/

structure Curl.Balanced (s : Curl) : Prop where
  count : s.refCount = s.started.card
  cleanup : ∀ remaining ∈ s.cleanups, remaining = ∅
  /-- No started instance is left with libcurl cleaned up. -/
  usable : s.started.Nonempty → s.global = some .init

/-- The step pairs off: `Init` meets an instance that is not started, and `Clear` one that is. -/
def Curl.paired (s : Curl) : LifeStep → Prop
  | .construct _ => True
  | .init i => i ∈ s.instances → i ∉ s.started
  | .clear i | .destruct i => i ∈ s.instances → i ∈ s.started

theorem Curl.init_balanced_iff {s : Curl} (h : s.Balanced) (i : Nat) :
    (s.init i).Balanced ↔ i ∉ s.started := by
  constructor
  · intro hb hmem
    have hcount : s.refCount + 1 = (insert i s.started).card := hb.count
    rw [Finset.insert_eq_of_mem hmem, h.count] at hcount
    omega
  · intro hno
    refine ⟨?_, h.cleanup, fun _ => ?_⟩
    · change s.refCount + 1 = (insert i s.started).card
      rw [Finset.card_insert_of_notMem hno, h.count]
      rfl
    · change (if s.refCount = 0 then some CurlGlobal.init else s.global) = some .init
      split
      · rfl
      · rename_i hzero
        rw [h.count] at hzero
        exact h.usable (Finset.card_pos.mp (by omega))

theorem Curl.clear_balanced_iff {s : Curl} (h : s.Balanced) (i : Nat) :
    (s.clear i).Balanced ↔ i ∈ s.started := by
  constructor
  · intro hb
    by_contra hno
    have hcount : s.refCount - 1 = (s.started.erase i).card := hb.count
    rw [Finset.erase_eq_of_notMem hno, h.count] at hcount
    omega
  · intro hmem
    have hcard := Finset.card_erase_add_one hmem
    have hcount := h.count
    have hlast : s.refCount = 1 → s.started.erase i = ∅ :=
      fun hone => Finset.card_eq_zero.mp (by omega)
    refine ⟨?_, fun remaining hr => ?_, fun hne => ?_⟩
    · change s.refCount - 1 = (s.started.erase i).card
      omega
    · change remaining ∈ (if s.refCount = 1 then s.started.erase i :: s.cleanups
        else s.cleanups) at hr
      split at hr
      · rename_i hone
        rcases List.mem_cons.mp hr with rfl | hr
        · exact hlast hone
        · exact h.cleanup remaining hr
      · exact h.cleanup remaining hr
    · change (if s.refCount = 1 then some CurlGlobal.cleanup else s.global) = some .init
      rw [if_neg fun hone => hne.ne_empty (hlast hone)]
      exact h.usable ⟨i, hmem⟩

/-- Destruction counts as `Clear` does. -/
theorem Curl.destruct_balanced_iff (s : Curl) (i : Nat) :
    (s.destruct i).Balanced ↔ (s.clear i).Balanced :=
  ⟨fun h => ⟨h.count, h.cleanup, h.usable⟩, fun h => ⟨h.count, h.cleanup, h.usable⟩⟩

theorem Curl.step_balanced_iff {s : Curl} (h : s.Balanced) (step : LifeStep) :
    (s.step step).Balanced ↔ s.paired step := by
  cases step with
  | construct i => exact iff_of_true ⟨h.count, h.cleanup, h.usable⟩ trivial
  | init i =>
    unfold Curl.step Curl.paired
    by_cases hi : i ∈ s.instances
    · simpa [hi] using Curl.init_balanced_iff h i
    · simpa [hi] using h
  | clear i =>
    unfold Curl.step Curl.paired
    by_cases hi : i ∈ s.instances
    · simpa [hi] using Curl.clear_balanced_iff h i
    · simpa [hi] using h
  | destruct i =>
    unfold Curl.step Curl.paired
    by_cases hi : i ∈ s.instances
    · simpa [hi] using (Curl.destruct_balanced_iff s i).trans (Curl.clear_balanced_iff h i)
    · simpa [hi] using h

/-- libcurl's global state is balanced throughout a run of any number of instances exactly when
every `Clear`, those of the destructors included, meets an instance whose `Init` has started
and that was not cleared since, and no `Init` meets such an instance. -/
theorem curl_balanced_iff (steps : List LifeStep) :
    (∀ s ∈ steps.scanl Curl.step {}, s.Balanced) ↔
      Runs.Guarded Curl.step Curl.paired {} steps :=
  Runs.forall_scanl_iff_guarded (fun _ step h => Curl.step_balanced_iff h step)
    ⟨rfl, by simp, by simp⟩ steps

/-- An application that is shut down clears twice: the count ends below zero. -/
theorem application_run_unbalanced :
    ¬ ∀ s ∈ (applicationRun 0).scanl Curl.step {}, s.Balanced := by
  intro h
  have hlast := (h ((applicationRun 0).foldl Curl.step {}) (by simp [applicationRun])).count
  revert hlast
  decide

end Psych
