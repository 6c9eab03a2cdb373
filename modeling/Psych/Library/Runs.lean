import Mathlib.Data.List.Basic

/-!
# Runs of a step function

A run is a list of inputs given to a total step function; `List.scanl step s inputs` are
the states it goes through, the first one included. `Guarded step C s inputs` says that
every step of the run is taken from a state and with an input that meet `C`.

A predicate that a step keeps exactly under `C` holds in every state of a run exactly
when the run is guarded by `C` (`forall_scanl_iff_guarded`).
-/

namespace Runs

variable {σ ι : Type}

/-- Every step of the run meets `C`, a condition on the state before it and its input. -/
def Guarded (step : σ → ι → σ) (C : σ → ι → Prop) : σ → List ι → Prop
  | _, [] => True
  | s, i :: inputs => C s i ∧ Guarded step C (step s i) inputs

@[simp]
theorem guarded_nil (step : σ → ι → σ) (C : σ → ι → Prop) (s : σ) : Guarded step C s [] :=
  trivial

@[simp]
theorem guarded_cons (step : σ → ι → σ) (C : σ → ι → Prop) (s : σ) (i : ι) (inputs : List ι) :
    Guarded step C s (i :: inputs) ↔ C s i ∧ Guarded step C (step s i) inputs := Iff.rfl

/-- An invariant of the step holds in every state of every run. -/
theorem forall_scanl_of_invariant {step : σ → ι → σ} (I : σ → Prop)
    (hstep : ∀ s i, I s → I (step s i)) {s : σ} (h : I s) (inputs : List ι) :
    ∀ t ∈ inputs.scanl step s, I t := by
  induction inputs generalizing s with
  | nil =>
    intro t ht
    rw [List.scanl_nil, List.mem_singleton] at ht
    exact ht ▸ h
  | cons i inputs ih =>
    intro t ht
    rw [List.scanl_cons, List.mem_cons] at ht
    rcases ht with rfl | ht
    · exact h
    · exact ih (hstep s i h) t ht

/-- A property that each step from a state of the invariant `I` gives up unless the step
meets `C`, where `I` is kept: it holds throughout a run exactly when the whole run is guarded
by `C`. -/
theorem forall_scanl_iff_guarded_of_invariant {step : σ → ι → σ} {P I : σ → Prop}
    {C : σ → ι → Prop} (hP : ∀ s, I s → P s) (hkeep : ∀ s i, I s → C s i → I (step s i))
    (hneed : ∀ s i, I s → P (step s i) → C s i) {s : σ} (h : I s) (inputs : List ι) :
    (∀ t ∈ inputs.scanl step s, P t) ↔ Guarded step C s inputs := by
  induction inputs generalizing s with
  | nil => simp [hP s h]
  | cons i inputs ih =>
    rw [guarded_cons, List.scanl_cons]
    constructor
    · intro hall
      have hi : P (step s i) := by
        apply hall
        cases inputs <;> simp
      have hC := hneed s i h hi
      exact ⟨hC, (ih (hkeep s i h hC)).mp fun t ht => hall t (List.mem_cons_of_mem _ ht)⟩
    · rintro ⟨hC, hrest⟩ t ht
      rcases List.mem_cons.mp ht with rfl | ht
      · exact hP _ h
      · exact (ih (hkeep s i h hC)).mpr hrest t ht

/-- A predicate that holds at the start and that each step keeps exactly when the step
meets `C` holds throughout a run exactly when the whole run is guarded by `C`. -/
theorem forall_scanl_iff_guarded {step : σ → ι → σ} {I : σ → Prop} {C : σ → ι → Prop}
    (hstep : ∀ s i, I s → (I (step s i) ↔ C s i)) {s : σ} (h : I s) (inputs : List ι) :
    (∀ t ∈ inputs.scanl step s, I t) ↔ Guarded step C s inputs :=
  forall_scanl_iff_guarded_of_invariant (fun _ h => h) (fun s i h => (hstep s i h).mpr)
    (fun s i h => (hstep s i h).mp) h inputs

/-- An invariant that guarded steps keep holds in every state of a guarded run. -/
theorem Guarded.forall_scanl {step : σ → ι → σ} {C : σ → ι → Prop} (I : σ → Prop)
    (hkeep : ∀ s i, I s → C s i → I (step s i)) {s : σ} (h : I s) {inputs : List ι}
    (hguarded : Guarded step C s inputs) : ∀ t ∈ inputs.scanl step s, I t := by
  induction inputs generalizing s with
  | nil =>
    intro t ht
    rw [List.scanl_nil, List.mem_singleton] at ht
    exact ht ▸ h
  | cons i inputs ih =>
    obtain ⟨hC, hrest⟩ := (guarded_cons step C s i inputs).mp hguarded
    intro t ht
    rw [List.scanl_cons, List.mem_cons] at ht
    rcases ht with rfl | ht
    · exact h
    · exact ih (hkeep s i h hC) hrest t ht

/-- Where each guarded step from a state of an invariant keeps it and meets `D`, every step of a
guarded run meets `D`. -/
theorem Guarded.mono_of_invariant {step : σ → ι → σ} {C D : σ → ι → Prop} (I : σ → Prop)
    (hkeep : ∀ s i, I s → C s i → I (step s i)) (hmeet : ∀ s i, I s → C s i → D s i) {s : σ}
    (h : I s) {inputs : List ι} (hguarded : Guarded step C s inputs) :
    Guarded step D s inputs := by
  induction inputs generalizing s with
  | nil => trivial
  | cons i inputs ih =>
    obtain ⟨hC, hrest⟩ := (guarded_cons step C s i inputs).mp hguarded
    exact ⟨hmeet s i h hC, ih (hkeep s i h hC) hrest⟩

end Runs
