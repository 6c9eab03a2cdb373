import Mathlib.Data.List.Range

/-!
# Loops without a condition

The body of `for (;;) { .. }` is a function of the number of the pass and the variables of the
loop: it goes on with other values (`Sum.inl`), or leaves with a result (`Sum.inr`). `Passes` is a
run of the loop, with the variables at the start of each pass. A loop with a variant has a run
(`exists_passes`), and what the body keeps holds at the start of every pass (`Passes.invariant`).
-/

namespace Loops

variable {σ ρ : Type} {body : Nat → σ → σ ⊕ ρ}

/-- The loop makes its passes from the `n`th on and leaves with a result. -/
inductive Passes (body : Nat → σ → σ ⊕ ρ) : Nat → σ → List σ → ρ → Prop
  | leave {n : Nat} {s : σ} {r : ρ} (h : body n s = .inr r) : Passes body n s [s] r
  | again {n : Nat} {s t : σ} {starts : List σ} {r : ρ} (h : body n s = .inl t)
      (rest : Passes body (n + 1) t starts r) : Passes body n s (s :: starts) r

variable {n : Nat} {s : σ} {starts : List σ} {r : ρ}

theorem Passes.head (h : Passes body n s starts r) : ∃ rest, starts = s :: rest := by
  cases h with
  | leave => exact ⟨[], rfl⟩
  | again _ rest => exact ⟨_, rfl⟩

/-- A loop ends where a number decreases with each pass but the last, after at most one pass more
than that number. -/
theorem exists_passes (variant : σ → Nat)
    (hvariant : ∀ {n s t}, body n s = .inl t → variant t < variant s) (n : Nat) (s : σ) :
    ∃ starts r, Passes body n s starts r ∧ starts.length ≤ variant s + 1 := by
  induction hv : variant s using Nat.strong_induction_on generalizing n s with
  | _ v ih =>
    cases hbody : body n s with
    | inr r => exact ⟨[s], r, .leave hbody, by simp⟩
    | inl t =>
      have hlt := hvariant hbody
      obtain ⟨starts, r, hrest, hlength⟩ := ih (variant t) (by omega) (n + 1) t rfl
      refine ⟨s :: starts, r, .again hbody hrest, ?_⟩
      rw [List.length_cons]
      omega

/-- What holds before the first pass and is kept by the body holds at the start of every pass, and
gives what the body leaves with in the last. -/
theorem Passes.invariant (I : Nat → σ → Prop) (E : Nat → ρ → Prop)
    (hagain : ∀ {n s t}, I n s → body n s = .inl t → I (n + 1) t)
    (hleave : ∀ {n s r}, I n s → body n s = .inr r → E n r) (h : Passes body n s starts r)
    (hs : I n s) :
    (∀ k t, starts[k]? = some t → I (n + k) t) ∧ E (n + (starts.length - 1)) r := by
  induction h with
  | leave hbody =>
    refine ⟨fun k t ht => ?_, hleave hs hbody⟩
    cases k with
    | zero =>
      cases ht
      exact hs
    | succ k => cases ht
  | @again n _ _ _ _ hbody rest ih =>
    obtain ⟨hstarts, hend⟩ := ih (hagain hs hbody)
    obtain ⟨tail, rfl⟩ := rest.head
    refine ⟨fun k t ht => ?_, ?_⟩
    · cases k with
      | zero =>
        cases ht
        exact hs
      | succ k =>
        have hk := hstarts k t ht
        rwa [Nat.add_assoc, Nat.add_comm 1] at hk
    · rwa [Nat.add_assoc, Nat.add_comm 1] at hend

end Loops
