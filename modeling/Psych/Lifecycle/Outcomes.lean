import Psych.Lifecycle.Release

/-!
# How a part of the start-up ends

A part of `Init` returns true, or fails in a state that `Clear` can undo or in one that it cannot.
`Leaves` says so of a part that returns a `bool`, `Passes` of one that can only throw. The rules
below follow the ways in which the parts are put together.
-/

namespace Psych.Startup

open Faults Lifetimes

variable {env : Environment} {s : Objects} {r : RfaResource} {o : Owners}

/-- Between two calls of the start-up, with an event queue that is there if it was set. -/
structure Phase (o : Owners) (s : Objects) : Prop extends Closing o o.eventQueue [] s where
  stable : o.Stable
  handlers : o.handlers = 0

/-- `Clear` will leave nothing. -/
def Undoable (s : Objects) : Prop := Cleared s ∨ ∃ o, Phase o s

/-- `event_queue_` owns a null pointer. -/
def NullQueued (s : Objects) : Prop :=
  ∃ o : Owners, o.Stable ∧ o.handlers = 0 ∧ o.eventQueue = true ∧ Closing o false [] s

/-- A part of the start-up failed, in a state that meets `F`, or `G` where the failure is
`bad`. -/
structure Fails (F G : Objects → Prop) (good bad : Prop) (s : Objects) : Prop where
  not_good : ¬ good
  state : (¬ bad ∧ F s) ∨ (bad ∧ G s)

/-- A part of the start-up returns true exactly when `good`, and crashes only when `bad`. -/
def Leaves (F G : Objects → Prop) (good bad : Prop) (M : Objects → Prop) :
    Except Stop Bool → Objects → Prop
  | .ok true, s => good ∧ ¬ bad ∧ M s
  | .ok false, s | .error .thrown, s => Fails F G good bad s
  | .error .crashed, _ => bad
  | .error .asserted, _ => False

/-- A part that may only throw. -/
def Passes (F : Objects → Prop) (good : Prop) (M : Objects → Prop) :
    Except Stop Unit → Objects → Prop
  | .ok (), s => good ∧ M s
  | .error .thrown, s => ¬ good ∧ F s
  | .error _, _ => False

section Rules

variable {P M N F G : Objects → Prop} {A B C D : Prop}

/-- What follows a failed part does not matter. -/
theorem Fails.first (h : Fails F G A B s) : Fails F G (A ∧ C) (B ∨ (A ∧ D)) s where
  not_good := fun hgood => h.not_good hgood.1
  state := h.state.imp
    (fun hF => ⟨fun hbad => hbad.elim hF.1 fun hAD => h.not_good hAD.1, hF.2⟩)
    fun hG => ⟨Or.inl hG.1, hG.2⟩

theorem Fails.mild (h : Fails F G A False s) : F s :=
  h.state.elim And.right fun hG => hG.1.elim

theorem Fails.second (hA : A) (hB : ¬ B) (h : Fails F G C D s) :
    Fails F G (A ∧ C) (B ∨ (A ∧ D)) s where
  not_good := fun hgood => h.not_good hgood.2
  state := h.state.imp (fun hF => ⟨fun hbad => hbad.elim hB fun hAD => hF.1 hAD.2, hF.2⟩)
    fun hG => ⟨Or.inr ⟨hA, hG.1⟩, hG.2⟩

theorem Leaves.second (hA : A) (hB : ¬ B) {out : Except Stop Bool} (h : Leaves F G C D N out s) :
    Leaves F G (A ∧ C) (B ∨ (A ∧ D)) N out s := by
  cases out with
  | ok b =>
    cases b with
    | true => exact ⟨⟨hA, h.1⟩, fun hbad => hbad.elim hB fun hAD => h.2.1 hAD.2, h.2.2⟩
    | false => exact Fails.second hA hB h
  | error e =>
    cases e with
    | thrown => exact Fails.second hA hB h
    | crashed => exact Or.inr ⟨hA, h⟩
    | asserted => exact h

/-- `if (!x) return false; y` -/
theorem Leaves.andThen {x y : Stage Bool} (hx : Triple P x (Leaves F G A B M))
    (hy : Triple M y (Leaves F G C D N)) :
    Triple P (x >>= fun b => if (!b) = true then pure false else y)
      (Leaves F G (A ∧ C) (B ∨ (A ∧ D)) N) := by
  refine Triple.bind (fun b s => Leaves F G A B M (.ok b) s) ?_ fun b => ?_
  · refine hx.mono (fun _ h => h) fun out s h => ?_
    cases out with
    | ok b => exact h
    | error e =>
      cases e with
      | thrown => exact Fails.first h
      | crashed => exact Or.inl h
      | asserted => exact h
  · cases b with
    | false => exact fun s h => Fails.first h
    | true => exact fun s h => Leaves.second h.1 h.2.1 (hy s h.2.2)

/-- `x; y`, where `x` may throw. -/
theorem Leaves.afterPass {x : Stage Unit} {y : Stage Bool} (hx : Triple P x (Passes F A M))
    (hy : Triple M y (Leaves F G C D N)) :
    Triple P (x >>= fun _ => y) (Leaves F G (A ∧ C) (False ∨ (A ∧ D)) N) := by
  refine Triple.bind (fun _ s => A ∧ M s) ?_ fun _ => ?_
  · refine hx.mono (fun _ h => h) fun out s h => ?_
    cases out with
    | ok u => exact h
    | error e =>
      cases e with
      | thrown => exact Fails.first ⟨h.1, Or.inl ⟨id, h.2⟩⟩
      | crashed => exact h.elim
      | asserted => exact h.elim
  · exact fun s h => Leaves.second h.1 id (hy s h.2)

theorem Leaves.congr {A' B' : Prop} {x : Stage Bool} (h : Triple P x (Leaves F G A B M))
    (hA : A ↔ A') (hB : B ↔ B') (hM : ∀ s, M s → N s) : Triple P x (Leaves F G A' B' N) := by
  rw [← propext hA, ← propext hB]
  refine h.mono (fun _ h => h) fun out s h => ?_
  cases out with
  | ok b =>
    cases b with
    | true => exact ⟨h.1, h.2.1, hM s h.2.2⟩
    | false => exact h
  | error e => cases e <;> exact h

/-- The answer of a call that acquires nothing. -/
theorem ask_spec (env : Environment) {c : RfaCall} (hF : ∀ s, P s → F s) :
    Triple P (env.ask c) (Leaves F G (env.answer c = .given) False P) := by
  intro s hs
  unfold Environment.ask
  cases hc : env.answer c with
  | given => exact ⟨rfl, id, hs⟩
  | refused => exact ⟨by simp, Or.inl ⟨id, hF s hs⟩⟩
  | thrown => exact ⟨by simp, Or.inl ⟨id, hF s hs⟩⟩

theorem obtain_given {c : RfaCall} (h : env.answer c = .given) :
    env.obtain c r s = (.ok true, s.acquired r) := by
  unfold Environment.obtain Environment.ask
  rw [h]
  rfl

theorem obtain_refused {c : RfaCall} (h : env.answer c = .refused) :
    env.obtain c r s = (.ok false, s) := by
  unfold Environment.obtain Environment.ask
  rw [h]
  rfl

theorem obtain_thrown {c : RfaCall} (h : env.answer c = .thrown) :
    env.obtain c r s = (.error .thrown, s) := by
  unfold Environment.obtain Environment.ask
  rw [h]
  rfl

theorem obtain_spec (env : Environment) {c : RfaCall} (hF : ∀ s, P s → F s)
    (hM : ∀ s, P s → M (s.acquired r)) :
    Triple P (env.obtain c r) (Leaves F G (env.answer c = .given) False M) := by
  intro s hs
  cases hc : env.answer c with
  | given =>
    rw [obtain_given hc]
    exact ⟨rfl, id, hM s hs⟩
  | refused =>
    rw [obtain_refused hc]
    exact ⟨by simp, Or.inl ⟨id, hF s hs⟩⟩
  | thrown =>
    rw [obtain_thrown hc]
    exact ⟨by simp, Or.inl ⟨id, hF s hs⟩⟩

theorem carryOut_thrown {c : RfaCall} (h : env.answer c = .thrown) :
    env.carryOut c s = (.error .thrown, s) := by
  unfold Environment.carryOut ignore Environment.ask
  rw [h]
  rfl

theorem carryOut_passed {c : RfaCall} (h : env.answer c ≠ .thrown) :
    env.carryOut c s = (.ok (), s) := by
  unfold Environment.carryOut ignore Environment.ask
  cases hc : env.answer c with
  | given => rfl
  | refused => rfl
  | thrown => exact absurd hc h

theorem carryOut_spec (env : Environment) {c : RfaCall} (hF : ∀ s, P s → F s) :
    Triple P (env.carryOut c) (Passes F (env.answer c ≠ .thrown) P) := by
  intro s hs
  by_cases hc : env.answer c = .thrown
  · rw [carryOut_thrown hc]
    exact ⟨not_not_intro hc, hF s hs⟩
  · rw [carryOut_passed hc]
    exact ⟨hc, hs⟩

theorem Passes.keeping {x : Stage Unit} (h : Triple P x (Passes F A M)) :
    Triple P x (Passes F A fun s => A ∧ M s) := by
  refine h.mono (fun _ h => h) fun out s h => ?_
  cases out with
  | ok u => exact ⟨h.1, h⟩
  | error e => cases e <;> exact h

/-- A loop over parts that may only throw. -/
theorem Passes.forEach {α : Type} {f : α → Stage Unit} {g : α → Prop}
    (I : List α → Objects → Prop) {l : List α}
    (hbody : ∀ pre x post, l = pre ++ x :: post →
      Triple (I pre) (f x) (Passes F (g x) (I (pre ++ [x])))) :
    Triple (I []) (Faults.forEach f l) (Passes F (∀ x ∈ l, g x) (I l)) := by
  refine (Triple.forEach (fun done s => (∀ x ∈ done, g x) ∧ I done s)
    (Q := Passes F (∀ x ∈ l, g x) (I l)) (fun pre x post hl => ?_) fun s h => h).mono
    (fun s hs => ⟨by simp, hs⟩) fun _ _ h => h
  rintro s ⟨hpre, hs⟩
  have hstep := hbody pre x post hl s hs
  revert hstep
  cases (f x s).1 with
  | ok u =>
    rintro ⟨hx, hI⟩
    refine ⟨fun y hy => ?_, hI⟩
    rcases List.mem_append.mp hy with hy | hy
    · exact hpre y hy
    · rw [List.mem_singleton.mp hy]
      exact hx
  | error e =>
    cases e with
    | thrown =>
      rintro ⟨hx, hf⟩
      refine ⟨fun hall => hx (hall x ?_), hf⟩
      rw [hl]
      simp
    | crashed => exact id
    | asserted => exact id

theorem forEach_carryOut_spec (env : Environment) {l : List RfaCall} (hF : ∀ s, P s → F s) :
    Triple P (Faults.forEach env.carryOut l) (Passes F (∀ c ∈ l, env.answer c ≠ .thrown) P) :=
  Passes.forEach (fun _ => P) fun _ _ _ _ => carryOut_spec env hF

end Rules

end Psych.Startup
