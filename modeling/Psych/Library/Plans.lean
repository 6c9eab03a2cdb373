import Psych.Library.Faults
import Mathlib.Data.List.Flatten

/-!
# Plans cut short

What a loop would do if nothing failed is a plan: a list of entries, some of them bad. A loop
that `Follows` a plan carries out its entries up to the first bad one, which ends it. Loops
follow the plans of their bodies one after another (`Follows.forEach`), so nested loops that one
fault leaves have one plan. In a plan sorted by a relation, an entry is carried out exactly when
no bad one is before it (`mem_upto_iff`).
-/

namespace Faults

variable {ε σ α ο π : Type}

/-- The entries of a plan up to the first bad one, with it. -/
def upto (bad : π → Bool) : List π → List π
  | [] => []
  | x :: plan => if bad x then [x] else x :: upto bad plan

theorem upto_append_of_good {bad : π → Bool} {plan : List π} (h : ∀ x ∈ plan, bad x = false)
    (rest : List π) : upto bad (plan ++ rest) = plan ++ upto bad rest := by
  induction plan with
  | nil => rfl
  | cons x plan ih =>
    rw [List.cons_append, upto, h x List.mem_cons_self, if_neg (by simp)]
    rw [ih fun y hy => h y (List.mem_cons_of_mem _ hy), List.cons_append]

theorem upto_append_of_bad {bad : π → Bool} {plan : List π} (h : ¬ ∀ x ∈ plan, bad x = false)
    (rest : List π) : upto bad (plan ++ rest) = upto bad plan := by
  induction plan with
  | nil => exact absurd (by simp) h
  | cons x plan ih =>
    rw [List.cons_append, upto, upto]
    cases hx : bad x with
    | true => rfl
    | false =>
      have hrest : ¬ ∀ y ∈ plan, bad y = false := fun hall =>
        h (List.forall_mem_cons.mpr ⟨hx, hall⟩)
      rw [ih hrest]

theorem upto_of_good {bad : π → Bool} {plan : List π} (h : ∀ x ∈ plan, bad x = false) :
    upto bad plan = plan := by
  have happend := upto_append_of_good h []
  rwa [List.append_nil, upto, List.append_nil] at happend

theorem upto_prefix (bad : π → Bool) (plan : List π) : upto bad plan <+: plan := by
  induction plan with
  | nil => exact List.prefix_refl _
  | cons x plan ih =>
    rw [upto]
    split
    · exact List.prefix_append [x] plan
    · exact List.prefix_cons_inj x |>.mpr ih

/-- In a sorted plan an entry is carried out exactly when no bad one is before it. -/
theorem mem_upto_iff {bad : π → Bool} {R : π → π → Prop} {plan : List π} (hsorted : plan.Pairwise R)
    (hasymm : ∀ x y, R x y → ¬ R y x) {x : π} :
    x ∈ upto bad plan ↔ x ∈ plan ∧ ∀ y ∈ plan, R y x → bad y = false := by
  induction plan with
  | nil => simp [upto]
  | cons z plan ih =>
    obtain ⟨hz, hplan⟩ := List.pairwise_cons.mp hsorted
    have hirrefl : ¬ R z z := fun h => hasymm z z h h
    rw [upto]
    cases hbad : bad z with
    | true =>
      rw [if_pos rfl, List.mem_singleton]
      constructor
      · rintro rfl
        refine ⟨List.mem_cons_self, fun y hy hyx => ?_⟩
        rcases List.mem_cons.mp hy with rfl | hy
        · exact absurd hyx hirrefl
        · exact absurd hyx (hasymm _ _ (hz y hy))
      · rintro ⟨hx, hall⟩
        rcases List.mem_cons.mp hx with rfl | hx
        · rfl
        · have hgood := hall z List.mem_cons_self (hz x hx)
          rw [hbad] at hgood
          cases hgood
    | false =>
      rw [if_neg (by simp), List.mem_cons, ih hplan, List.mem_cons]
      constructor
      · rintro (rfl | ⟨hx, hall⟩)
        · refine ⟨Or.inl rfl, fun y hy hyx => ?_⟩
          rcases List.mem_cons.mp hy with rfl | hy
          · exact hbad
          · exact absurd hyx (hasymm _ _ (hz y hy))
        · exact ⟨Or.inr hx, List.forall_mem_cons.mpr ⟨fun _ => hbad, hall⟩⟩
      · rintro ⟨rfl | hx, hall⟩
        · exact Or.inl rfl
        · exact Or.inr ⟨hx, fun y hy => hall y (List.mem_cons_of_mem _ hy)⟩

/-- The step from `s` to `r` carried out a plan up to its first bad entry: what is seen of these
entries was added to the log, newest first, and no fault ended the step where none is bad. -/
structure Follows (log : σ → List ο) (bad : π → Bool) (seen : π → Option ο) (plan : List π)
    (s : σ) (r : Except ε α × σ) : Prop where
  log : log r.2 = ((upto bad plan).filterMap seen).reverse ++ log s
  ok : succeeded r = true ↔ ∀ x ∈ plan, bad x = false

/-- A loop follows the plans of its body, one after another. -/
theorem Follows.forEach (log : σ → List ο) (bad : π → Bool) (seen : π → Option ο)
    {f : α → σ → Except ε Unit × σ} {g : α → List π} (I : σ → Prop) {l : List α}
    (hbody : ∀ x ∈ l, ∀ s, I s → Follows log bad seen (g x) s (f x s) ∧ I (f x s).2)
    {s : σ} (h : I s) :
    Follows log bad seen (l.flatMap g) s (Faults.forEach f l s) ∧ I (Faults.forEach f l s).2 := by
  induction l generalizing s with
  | nil => exact ⟨⟨rfl, by simp⟩, h⟩
  | cons x l ih =>
    obtain ⟨hx, hI⟩ := hbody x List.mem_cons_self s h
    obtain ⟨hl, hIl⟩ := ih (fun y hy => hbody y (List.mem_cons_of_mem _ hy)) hI
    have hflat : (x :: l).flatMap g = g x ++ l.flatMap g := List.flatMap_cons
    rw [hflat]
    rcases forEach_cons_cases f x l s with ⟨e, hb, he⟩ | ⟨hb, he⟩
    · have hbad : ¬ ∀ y ∈ g x, bad y = false := by
        rw [← hx.ok, succeeded, hb]
        simp
      rw [he]
      refine ⟨⟨?_, ?_⟩, hI⟩
      · rw [upto_append_of_bad hbad]
        exact hx.log
      · rw [succeeded_error]
        refine iff_of_false (by simp) fun hall => hbad fun y hy => ?_
        exact hall y (List.mem_append_left _ hy)
    · have hgood : ∀ y ∈ g x, bad y = false := by
        rw [← hx.ok, succeeded, hb]
      rw [he]
      refine ⟨⟨?_, ?_⟩, hIl⟩
      · rw [hl.log, hx.log, upto_append_of_good hgood, upto_of_good hgood]
        rw [List.filterMap_append, List.reverse_append, List.append_assoc]
      · rw [hl.ok]
        simp only [List.mem_append, or_imp, forall_and]
        exact (and_iff_right hgood).symm

end Faults
