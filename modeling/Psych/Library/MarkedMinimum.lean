import Mathlib.Data.List.Induction
import Mathlib.Order.Bounds.Basic
import Mathlib.Order.BoundedOrder.Lattice
import Mathlib.Order.MinMax

/-!
# A minimum with a marker

The minimum of a list, kept in a variable for which the least value stands for "no value yet". A
value that is the marker is forgotten as soon as another follows (`isLeast_run_iff`).
-/

namespace MarkedMinimum

variable {α : Type*} [LinearOrder α] [OrderBot α]

/-- The variable takes the first value, and after that each lower one. -/
def step (m v : α) : α :=
  let m := if m = ⊥ then v else m
  if v < m then v else m

theorem step_bot (v : α) : step ⊥ v = v := by simp [step]

theorem step_of_ne_bot {m : α} (h : m ≠ ⊥) (v : α) : step m v = min m v := by
  unfold step
  simp only [if_neg h]
  split <;> rename_i hlt
  · exact (min_eq_right hlt.le).symm
  · exact (min_eq_left (not_lt.mp hlt)).symm

theorem step_eq_bot_iff {m v : α} : step m v = ⊥ ↔ v = ⊥ := by
  by_cases h : m = ⊥
  · rw [h, step_bot]
  · rw [step_of_ne_bot h, min_eq_bot]
    exact or_iff_right h

/-- The variable after the values. -/
def run (values : List α) : α := values.foldl step ⊥

theorem run_concat (values : List α) (v : α) : run (values ++ [v]) = step (run values) v :=
  List.foldl_append

theorem run_eq_bot_iff {values : List α} :
    run values = ⊥ ↔ values = [] ∨ values.getLast? = some ⊥ := by
  rcases List.eq_nil_or_concat values with rfl | ⟨before, v, rfl⟩
  · exact iff_of_true rfl (Or.inl rfl)
  · rw [List.concat_eq_append, run_concat, step_eq_bot_iff, List.getLast?_concat, Option.some_inj]
    exact (or_iff_right (by simp)).symm

/-- Without the marker among them, the variable holds the least of the values. -/
theorem isLeast_run {values : List α} (hne : values ≠ []) (h : ⊥ ∉ values) :
    IsLeast {v | v ∈ values} (run values) := by
  induction values using List.reverseRecOn with
  | nil => exact absurd rfl hne
  | append_singleton before v ih =>
    rw [run_concat]
    by_cases hbefore : before = []
    · subst hbefore
      refine ⟨List.mem_singleton.mpr (step_bot v), fun x hx => ?_⟩
      rw [List.mem_singleton.mp hx]
      exact (step_bot v).le
    · have hno : ⊥ ∉ before := fun hmem => h (List.mem_append_left _ hmem)
      obtain ⟨hmem, hleast⟩ := ih hbefore hno
      rw [step_of_ne_bot fun heq => hno (heq ▸ hmem)]
      refine ⟨?_, fun x hx => ?_⟩
      · rcases min_choice (run before) v with heq | heq <;> rw [heq]
        · exact List.mem_append_left _ hmem
        · exact List.mem_concat_self
      · rcases List.mem_append.mp hx with hold | hnew
        · exact (min_le_left _ _).trans (hleast hold)
        · rw [List.mem_singleton.mp hnew]
          exact min_le_right _ _

/-- The variable holds the least value exactly where the marker is not among the values, or comes
last. -/
theorem isLeast_run_iff {values : List α} :
    (values ≠ [] → IsLeast {v | v ∈ values} (run values)) ↔
      ⊥ ∉ values ∨ values.getLast? = some ⊥ := by
  constructor
  · intro h
    by_contra hno
    rw [not_or, not_not] at hno
    obtain ⟨hmem, hlast⟩ := hno
    have hne : values ≠ [] := List.ne_nil_of_mem hmem
    have hbot : run values = ⊥ := le_bot_iff.mp ((h hne).2 hmem)
    exact hlast ((run_eq_bot_iff.mp hbot).resolve_left hne)
  · rintro (hno | hlast) hne
    · exact isLeast_run hne hno
    · rw [run_eq_bot_iff.mpr (Or.inr hlast)]
      exact ⟨List.mem_of_getLast? hlast, fun _ _ => bot_le⟩

end MarkedMinimum
