import Mathlib.Data.List.Basic

/-!
# Fallible steps on parts of a state

A step `σ → Except ε σ` *commutes* with a map of states if it makes of the mapped state what the
map makes of its own result (`Commutes`); so does a loop of such steps (`Commutes.foldlM`).

A state may be joined from two parts. A step of the whole *splits* into steps of the parts if it
succeeds exactly when both do (`Splits`): which of two faults is reported is not said. A loop of
steps that split is split into two loops (`Splits.foldlM`).
-/

namespace Parts

variable {ε σ α β γ : Type}

theorem bind_eq_ok_iff {x : Except ε α} {f : α → Except ε β} {b : β} :
    (x >>= f) = .ok b ↔ ∃ a, x = .ok a ∧ f a = .ok b := by
  cases x with
  | error e =>
    refine ⟨fun h => ?_, fun h => ?_⟩
    · cases h
    · obtain ⟨a, ha, -⟩ := h
      cases ha
  | ok a =>
    refine ⟨fun h => ⟨a, rfl, h⟩, fun h => ?_⟩
    obtain ⟨a', ha, hb⟩ := h
    cases ha
    exact hb

/-- A loop over the elements of several lists, one list after the other. -/
theorem foldlM_flatMap (f : σ → β → Except ε σ) (g : α → List β) (l : List α) (s : σ) :
    (l.flatMap g).foldlM f s = l.foldlM (fun s x => (g x).foldlM f s) s := by
  induction l generalizing s with
  | nil => rfl
  | cons x l ih =>
    rw [List.flatMap_cons, List.foldlM_append, List.foldlM_cons]
    congr 1
    funext t
    exact ih t

/-! ## Steps that commute with a map -/

def Commutes (u : σ → σ) (f : σ → Except ε σ) : Prop :=
  ∀ s, f (u s) = (f s).map u

variable {u : σ → σ}

theorem commutes_ok {v : σ → σ} (h : ∀ s, v (u s) = u (v s)) :
    Commutes u fun s => (.ok (v s) : Except ε σ) := by
  intro s
  exact congrArg Except.ok (h s)

theorem Commutes.bind {f g : σ → Except ε σ} (hf : Commutes u f) (hg : Commutes u g) :
    Commutes u fun s => f s >>= g := by
  intro s
  change f (u s) >>= g = (f s >>= g).map u
  rw [hf s]
  cases f s with
  | error e => rfl
  | ok t => exact hg t

/-- A step that reads something on its own and then uses it. -/
theorem commutes_read {x : Except ε α} {f : α → σ → Except ε σ} (h : ∀ a, Commutes u (f a)) :
    Commutes u fun s => x >>= fun a => f a s := by
  intro s
  cases x with
  | error e => rfl
  | ok a => exact h a s

theorem Commutes.foldlM {f : α → σ → Except ε σ} (h : ∀ x, Commutes u (f x)) (l : List α) :
    Commutes u fun s => l.foldlM (fun s x => f x s) s := by
  induction l with
  | nil => exact commutes_ok fun _ => rfl
  | cons x l ih =>
    simp only [List.foldlM_cons]
    exact (h x).bind ih

/-! ## Steps that split -/

def Splits (join : α → β → σ) (f : σ → Except ε σ) (g : α → Except ε α) (h : β → Except ε β) :
    Prop :=
  ∀ a b s, f (join a b) = .ok s ↔ ∃ a' b', g a = .ok a' ∧ h b = .ok b' ∧ join a' b' = s

variable {join : α → β → σ}

theorem map_eq_ok_iff {x : Except ε α} {f : α → β} {b : β} :
    x.map f = .ok b ↔ ∃ a, x = .ok a ∧ f a = b := by
  cases x with
  | error e => simp [Except.map]
  | ok a => simp [Except.map]

/-- A step of one part, and then a step of the other. -/
theorem splits_bind {f f' : σ → Except ε σ} {g : α → Except ε α} {h : β → Except ε β}
    (hf : ∀ a b, f (join a b) = (g a).map fun a' => join a' b)
    (hf' : ∀ a b, f' (join a b) = (h b).map fun b' => join a b') :
    Splits join (fun s => f s >>= f') g h := by
  intro a b s
  rw [bind_eq_ok_iff, hf]
  constructor
  · rintro ⟨t, ht, hs⟩
    obtain ⟨a', ha, rfl⟩ := map_eq_ok_iff.mp ht
    rw [hf'] at hs
    obtain ⟨b', hb, rfl⟩ := map_eq_ok_iff.mp hs
    exact ⟨a', b', ha, hb, rfl⟩
  · rintro ⟨a', b', ha, hb, rfl⟩
    refine ⟨join a' b, map_eq_ok_iff.mpr ⟨a', ha, rfl⟩, ?_⟩
    rw [hf']
    exact map_eq_ok_iff.mpr ⟨b', hb, rfl⟩

theorem Splits.foldlM {f : γ → σ → Except ε σ} {g : γ → α → Except ε α} {h : γ → β → Except ε β}
    (hsplits : ∀ x, Splits join (f x) (g x) (h x)) (l : List γ) :
    Splits join (fun s => l.foldlM (fun s x => f x s) s)
      (fun a => l.foldlM (fun a x => g x a) a) fun b => l.foldlM (fun b x => h x b) b := by
  induction l with
  | nil =>
    intro a b s
    constructor
    · intro hs
      cases hs
      exact ⟨a, b, rfl, rfl, rfl⟩
    · rintro ⟨a', b', ha, hb, rfl⟩
      cases ha
      cases hb
      rfl
  | cons x l ih =>
    intro a b s
    simp only [List.foldlM_cons, bind_eq_ok_iff]
    constructor
    · rintro ⟨t, ht, hs⟩
      obtain ⟨a₁, b₁, ha₁, hb₁, rfl⟩ := (hsplits x a b t).mp ht
      obtain ⟨a₂, b₂, ha₂, hb₂, hs⟩ := (ih a₁ b₁ s).mp hs
      exact ⟨a₂, b₂, ⟨a₁, ha₁, ha₂⟩, ⟨b₁, hb₁, hb₂⟩, hs⟩
    · rintro ⟨a₂, b₂, ⟨a₁, ha₁, ha₂⟩, ⟨b₁, hb₁, hb₂⟩, hs⟩
      exact ⟨join a₁ b₁, (hsplits x a b _).mpr ⟨a₁, b₁, ha₁, hb₁, rfl⟩,
        (ih a₁ b₁ s).mpr ⟨a₂, b₂, ha₂, hb₂, hs⟩⟩

end Parts
