import Psych.Library.Faults

/-!
# Pre- and postconditions of steps that may fault

`Step ε σ` is the monad of the steps that `Psych.Library.Faults` loops over. `Triple P x Q` says
that from every state that meets `P` the step `x` ends with an outcome and a state that meet `Q`.
There is one rule for each way to build a step.
-/

namespace Faults

variable {ε σ α β : Type}

/-- A step that may fault; the state it leaves is kept in both cases. -/
def Step (ε σ α : Type) : Type := σ → Except ε α × σ

namespace Step

def fail (e : ε) : Step ε σ α := fun s => (.error e, s)

def modify (f : σ → σ) : Step ε σ Unit := fun s => (.ok (), f s)

def gets (f : σ → α) : Step ε σ α := fun s => (.ok (f s), s)

/-- `try { x } catch (e) { h (e) }`. -/
def handle (x : Step ε σ α) (h : ε → Step ε σ α) : Step ε σ α := fun s =>
  match x s with
  | (.ok a, s) => (.ok a, s)
  | (.error e, s) => h e s

instance : Monad (Step ε σ) where
  pure a := fun s => (.ok a, s)
  bind x f := fun s =>
    match x s with
    | (.ok a, s) => f a s
    | (.error e, s) => (.error e, s)

theorem bind_ok {x : Step ε σ β} {f : β → Step ε σ α} {s t : σ} {b : β} (h : x s = (.ok b, t)) :
    (x >>= f) s = f b t := by
  change (match x s with
    | (.ok b, s) => f b s
    | (.error e, s) => (.error e, s)) = f b t
  rw [h]

theorem bind_error {x : Step ε σ β} {f : β → Step ε σ α} {s t : σ} {e : ε}
    (h : x s = (.error e, t)) : (x >>= f) s = (.error e, t) := by
  change (match x s with
    | (.ok b, s) => f b s
    | (.error e, s) => (.error e, s)) = _
  rw [h]

end Step

/-- A condition on the outcome and the state, for each kind of outcome. -/
def endsIn (M : α → σ → Prop) (F : ε → σ → Prop) : Except ε α → σ → Prop
  | .ok a, s => M a s
  | .error e, s => F e s

/-- From every state that meets `P` the step ends with an outcome and a state that meet `Q`. -/
def Triple (P : σ → Prop) (x : Step ε σ α) (Q : Except ε α → σ → Prop) : Prop :=
  ∀ s, P s → Q (x s).1 (x s).2

namespace Triple

variable {P P' R : σ → Prop} {Q Q' : Except ε α → σ → Prop}

theorem mono {x : Step ε σ α} (h : Triple P x Q) (hpre : ∀ s, P' s → P s)
    (hpost : ∀ r s, Q r s → Q' r s) : Triple P' x Q' :=
  fun s hs => hpost _ _ (h s (hpre s hs))

theorem fail {e : ε} (h : ∀ s, P s → Q (.error e) s) : Triple P (Step.fail e) Q := h

theorem modify {Q : Except ε Unit → σ → Prop} {f : σ → σ} (h : ∀ s, P s → Q (.ok ()) (f s)) :
    Triple P (Step.modify f) Q := h

/-- The second step starts from what the first one establishes where it does not fault. -/
theorem bind {x : Step ε σ β} {f : β → Step ε σ α} (M : β → σ → Prop)
    (hx : Triple P x (endsIn M fun e => Q (.error e))) (hf : ∀ b, Triple (M b) (f b) Q) :
    Triple P (x >>= f) Q := by
  intro s hs
  have hpost := hx s hs
  cases hxs : x s with
  | mk r t =>
    rw [hxs] at hpost
    cases r with
    | ok b =>
      rw [Step.bind_ok hxs]
      exact hf b t hpost
    | error e =>
      rw [Step.bind_error hxs]
      exact hpost

/-- A first step that does not fault. -/
theorem seq {x : Step ε σ Unit} {y : Step ε σ α} {M : σ → Prop}
    (hx : Triple P x (endsIn (fun _ => M) fun _ _ => False)) (hy : Triple M y Q) :
    Triple P (x >>= fun _ => y) Q :=
  bind (fun _ => M) (hx.mono (fun _ h => h) fun r s h => by
    cases r with
    | ok u => exact h
    | error e => exact h.elim) fun _ => hy

/-- Nothing follows a step that always faults. -/
theorem stop {x : Step ε σ β} {f : β → Step ε σ α}
    (hx : Triple P x (endsIn (fun _ _ => False) fun e => Q (.error e))) : Triple P (x >>= f) Q :=
  bind (fun _ _ => False) hx fun _ _ h => h.elim

/-- A value read from the state is that of the state the next step starts from. -/
theorem gets_bind {g : σ → β} {f : β → Step ε σ α}
    (h : ∀ b, Triple (fun s => P s ∧ g s = b) (f b) Q) : Triple P (Step.gets g >>= f) Q :=
  fun s hs => h (g s) s ⟨hs, rfl⟩

theorem handle {x : Step ε σ α} {h : ε → Step ε σ α} (M : ε → σ → Prop)
    (hx : Triple P x (endsIn (fun a => Q (.ok a)) M)) (hh : ∀ e, Triple (M e) (h e) Q) :
    Triple P (x.handle h) Q := by
  intro s hs
  have hpost := hx s hs
  unfold Step.handle
  cases hxs : x s with
  | mk r t =>
    rw [hxs] at hpost
    cases r with
    | ok a => exact hpost
    | error e => exact hh e t hpost

theorem ite {c : Prop} [Decidable c] {x y : Step ε σ α} (hx : c → Triple P x Q)
    (hy : ¬ c → Triple P y Q) : Triple P (if c then x else y) Q := by
  split
  · exact hx ‹_›
  · exact hy ‹_›

/-- A loop with an invariant about the part of the list it has gone through. -/
theorem forEach {f : α → Step ε σ Unit} {Q : Except ε Unit → σ → Prop} (I : List α → σ → Prop)
    {l : List α}
    (hbody : ∀ pre x post, l = pre ++ x :: post →
      Triple (I pre) (f x) (endsIn (fun _ => I (pre ++ [x])) fun e => Q (.error e)))
    (hend : ∀ s, I l s → Q (.ok ()) s) : Triple (I []) (Faults.forEach f l) Q := by
  intro s hs
  have hloop := forEach_prefix (I := I) (F := fun e => Q (.error e)) (f := f) (l := l)
    (fun pre x post t hl hI hok => by
      have hpost := hbody pre x post hl t hI
      rwa [hok] at hpost)
    (fun pre x post t e hl hI herror => by
      have hpost := hbody pre x post hl t hI
      rwa [herror] at hpost) hs
  rcases hloop with ⟨hok, hI⟩ | ⟨e, herror, hF⟩
  · rw [hok]
    exact hend _ hI
  · rw [herror]
    exact hF

end Triple

end Faults
