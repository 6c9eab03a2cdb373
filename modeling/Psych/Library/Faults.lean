import Mathlib.Data.List.Basic
import Mathlib.Data.List.Forall2

/-!
# Loops that a fault leaves

A step that may fault returns `Except ε α × σ`: the fault or a value, and in both cases
the state it leaves behind. `forEach` runs such a step over a list and stops at the
first fault.

Two kinds of facts are carried through a loop.

* State facts: an invariant (`forEach_invariant`, `forEach_outcome`) or a preorder between
  the state before and after (`forEach_rel`).
* Facts about a log the state carries, newest entry first. `Emits log Q s r` says that
  the step from `s` to `r` only added entries, and that `Q` holds of the added entries
  and of whether the step ended without a fault. A `Q` that is closed under
  concatenation (`Composable`) passes from the body of a loop to the loop
  (`Emits.forEach`). The two kinds of `Q` in use are *blame* (`blame`: a step faults
  exactly when it logged a bad entry) and *matching* (`matching`: two conditions on
  entries hold of a run together or not at all).

A condition on an entry and the entries older than it is a `Chronicle` of the log.
-/

namespace Faults

variable {ε σ α β ο : Type}

/-- `for (x : l) f (x)`; a fault of `f` leaves the loop. -/
def forEach (f : α → σ → Except ε Unit × σ) : List α → σ → Except ε Unit × σ
  | [], s => (.ok (), s)
  | x :: l, s =>
    match f x s with
    | (.error e, s) => (.error e, s)
    | (.ok (), s) => forEach f l s

@[simp]
theorem forEach_nil (f : α → σ → Except ε Unit × σ) (s : σ) :
    forEach f [] s = (.ok (), s) := rfl

theorem forEach_cons_error {f : α → σ → Except ε Unit × σ} {x : α} {s : σ} {e : ε}
    (h : (f x s).1 = .error e) (l : List α) :
    forEach f (x :: l) s = (.error e, (f x s).2) := by
  rw [forEach]
  split
  · rename_i e' s' hb
    rw [hb] at h ⊢
    cases h
    rfl
  · rename_i s' hb
    rw [hb] at h
    cases h

theorem forEach_cons_ok {f : α → σ → Except ε Unit × σ} {x : α} {s : σ}
    (h : (f x s).1 = .ok ()) (l : List α) :
    forEach f (x :: l) s = forEach f l (f x s).2 := by
  rw [forEach]
  split
  · rename_i e' s' hb
    rw [hb] at h
    cases h
  · rename_i s' hb
    rw [hb]

/-- The first step of a loop either faults, and the loop ends there, or does not, and
the loop goes on from the state it left. -/
theorem forEach_cons_cases (f : α → σ → Except ε Unit × σ) (x : α) (l : List α) (s : σ) :
    (∃ e, (f x s).1 = .error e ∧ forEach f (x :: l) s = (.error e, (f x s).2)) ∨
    ((f x s).1 = .ok () ∧ forEach f (x :: l) s = forEach f l (f x s).2) := by
  cases h : (f x s).1 with
  | error e => exact Or.inl ⟨e, rfl, forEach_cons_error h l⟩
  | ok u => exact Or.inr ⟨rfl, forEach_cons_ok h l⟩

/-! ## State facts -/

theorem forEach_invariant {f : α → σ → Except ε Unit × σ} (I : σ → Prop) {l : List α}
    (hbody : ∀ x ∈ l, ∀ s, I s → I (f x s).2) {s : σ} (h : I s) :
    I (forEach f l s).2 := by
  induction l generalizing s with
  | nil => exact h
  | cons x l ih =>
    have hx : I (f x s).2 := hbody x List.mem_cons_self s h
    rcases forEach_cons_cases f x l s with ⟨e, _, he⟩ | ⟨_, he⟩
    · rw [he]
      exact hx
    · rw [he]
      exact ih (fun y hy => hbody y (List.mem_cons_of_mem _ hy)) hx

theorem forEach_rel {f : α → σ → Except ε Unit × σ} (R : σ → σ → Prop)
    (hrefl : ∀ s, R s s) (htrans : ∀ s t u, R s t → R t u → R s u)
    (hbody : ∀ x s, R s (f x s).2) (l : List α) (s : σ) :
    R s (forEach f l s).2 :=
  forEach_invariant (R s) (fun x _ t ht => htrans s t _ ht (hbody x t)) (hrefl s)

/-- An invariant that may also speak of how a step ended. -/
theorem forEach_outcome {f : α → σ → Except ε Unit × σ} (I : Except ε Unit → σ → Prop)
    {l : List α} (hbody : ∀ x ∈ l, ∀ s, I (.ok ()) s → I (f x s).1 (f x s).2) {s : σ}
    (h : I (.ok ()) s) : I (forEach f l s).1 (forEach f l s).2 := by
  induction l generalizing s with
  | nil => exact h
  | cons x l ih =>
    have hx := hbody x List.mem_cons_self s h
    rcases forEach_cons_cases f x l s with ⟨e, hb, he⟩ | ⟨hb, he⟩
    · rw [he, ← hb]
      exact hx
    · rw [he]
      rw [hb] at hx
      exact ih (fun y hy => hbody y (List.mem_cons_of_mem _ hy)) hx

/-- A loop whose body never faults in states of an invariant does not fault. -/
theorem forEach_ok {f : α → σ → Except ε Unit × σ} (I : σ → Prop) {l : List α}
    (hbody : ∀ x ∈ l, ∀ s, I s → (f x s).1 = .ok () ∧ I (f x s).2) {s : σ} (h : I s) :
    (forEach f l s).1 = .ok () ∧ I (forEach f l s).2 := by
  induction l generalizing s with
  | nil => exact ⟨rfl, h⟩
  | cons x l ih =>
    obtain ⟨hok, hI⟩ := hbody x List.mem_cons_self s h
    rw [forEach_cons_ok hok]
    exact ih (fun y hy => hbody y (List.mem_cons_of_mem _ hy)) hI

/-- A loop whose body faults on exactly the elements outside `G` ends without a fault
exactly when all elements are in `G`. -/
theorem forEach_ok_iff {f : α → σ → Except ε Unit × σ} (I : σ → Prop) {G : α → Prop}
    {l : List α} (hbody : ∀ x ∈ l, ∀ s, I s → ((f x s).1 = .ok () ↔ G x) ∧ I (f x s).2)
    {s : σ} (h : I s) : (forEach f l s).1 = .ok () ↔ ∀ x ∈ l, G x := by
  induction l generalizing s with
  | nil => simp
  | cons x l ih =>
    obtain ⟨hx, hI⟩ := hbody x List.mem_cons_self s h
    have hxs := ih (fun y hy => hbody y (List.mem_cons_of_mem _ hy)) hI
    rw [List.forall_mem_cons, ← hx, ← hxs]
    rcases forEach_cons_cases f x l s with ⟨e, hb, he⟩ | ⟨hb, he⟩
    · simp [he, hb]
    · simp [he, hb]

/-- The faults a loop ends with are faults of its body. -/
theorem forEach_error {f : α → σ → Except ε Unit × σ} (I : σ → Prop) {E : ε → Prop}
    {l : List α} (hbody : ∀ x ∈ l, ∀ s, I s →
      (∀ e, (f x s).1 = .error e → E e) ∧ I (f x s).2) {s : σ} (h : I s) :
    ∀ e, (forEach f l s).1 = .error e → E e := by
  induction l generalizing s with
  | nil =>
    intro e he
    cases he
  | cons x l ih =>
    obtain ⟨hx, hI⟩ := hbody x List.mem_cons_self s h
    rcases forEach_cons_cases f x l s with ⟨e', hb, he⟩ | ⟨_, he⟩
    · rw [he]
      intro e hee
      cases hee
      exact hx _ hb
    · rw [he]
      exact ih (fun y hy => hbody y (List.mem_cons_of_mem _ hy)) hI

/-- What each step establishes when it succeeds, and no step takes back, holds after a
loop that succeeds. -/
theorem forEach_covers {f : α → σ → Except ε Unit × σ} {P : α → σ → Prop}
    (hkeep : ∀ x y s, P x s → P x (f y s).2)
    (hbody : ∀ x s, (f x s).1 = .ok () → P x (f x s).2) {l : List α} {s : σ}
    (hok : (forEach f l s).1 = .ok ()) : ∀ x ∈ l, P x (forEach f l s).2 := by
  induction l generalizing s with
  | nil => simp
  | cons y l ih =>
    rcases forEach_cons_cases f y l s with ⟨e, _, he⟩ | ⟨hb, he⟩
    · rw [he] at hok
      cases hok
    · rw [he] at hok ⊢
      intro x hx
      rcases List.mem_cons.mp hx with rfl | hx
      · exact forEach_invariant (P x) (fun z _ t ht => hkeep x z t ht) (hbody x s hb)
      · exact ih hok x hx

/-- A loop whose body appends entries appends those of all elements. -/
theorem forEach_appends {f : α → σ → Except ε Unit × σ} (out : σ → List ο) (g : α → List ο)
    {l : List α} (hbody : ∀ x ∈ l, ∀ s, (f x s).1 = .ok () → out (f x s).2 = out s ++ g x)
    {s : σ} (hok : (forEach f l s).1 = .ok ()) :
    out (forEach f l s).2 = out s ++ l.flatMap g := by
  induction l generalizing s with
  | nil => simp
  | cons x l ih =>
    rcases forEach_cons_cases f x l s with ⟨e, _, he⟩ | ⟨hb, he⟩
    · rw [he] at hok
      cases hok
    · rw [he] at hok ⊢
      rw [ih (fun y hy => hbody y (List.mem_cons_of_mem _ hy)) hok,
        hbody x List.mem_cons_self s hb, List.flatMap_cons, List.append_assoc]

/-- A loop with an invariant `I` about the part of the list it has gone through: it holds
of the whole list after a loop that succeeds, and `F` holds where a step faulted. -/
theorem forEach_prefix {f : α → σ → Except ε Unit × σ} {I : List α → σ → Prop}
    {F : ε → σ → Prop} {l : List α}
    (hok : ∀ pre x post s, l = pre ++ x :: post → I pre s → (f x s).1 = .ok () →
      I (pre ++ [x]) (f x s).2)
    (herror : ∀ pre x post s e, l = pre ++ x :: post → I pre s → (f x s).1 = .error e →
      F e (f x s).2)
    {s : σ} (h : I [] s) :
    ((forEach f l s).1 = .ok () ∧ I l (forEach f l s).2) ∨
    ∃ e, (forEach f l s).1 = .error e ∧ F e (forEach f l s).2 := by
  suffices hall : ∀ done rest s, l = done ++ rest → I done s →
      ((forEach f rest s).1 = .ok () ∧ I l (forEach f rest s).2) ∨
      ∃ e, (forEach f rest s).1 = .error e ∧ F e (forEach f rest s).2 from
    hall [] l s rfl h
  intro done rest
  induction rest generalizing done with
  | nil =>
    intro s hxs hI
    rw [List.append_nil] at hxs
    exact Or.inl ⟨rfl, hxs ▸ hI⟩
  | cons x rest ih =>
    intro s hxs hI
    rcases forEach_cons_cases f x rest s with ⟨e, hb, he⟩ | ⟨hb, he⟩
    · rw [he]
      exact Or.inr ⟨e, rfl, herror done x rest s e hxs hI hb⟩
    · rw [he]
      exact ih (done ++ [x]) (f x s).2 (by rw [hxs, List.append_assoc]; rfl)
        (hok done x rest s hxs hI hb)

/-- As `forEach_prefix`, of a loop that no fault leaves. -/
theorem forEach_prefix_of_ok {f : α → σ → Except ε Unit × σ} {I : List α → σ → Prop} {l : List α}
    (hok : ∀ pre x post s, l = pre ++ x :: post → I pre s → (f x s).1 = .ok () →
      I (pre ++ [x]) (f x s).2)
    {s : σ} (h : I [] s) (hend : (forEach f l s).1 = .ok ()) : I l (forEach f l s).2 := by
  have hloop := forEach_prefix (F := fun _ _ => True) hok (fun _ _ _ _ _ _ _ _ => trivial) h
  rcases hloop with ⟨_, hI⟩ | ⟨e, he, _⟩
  · exact hI
  · rw [hend] at he
    cases he

/-- The states a loop passes through, each with the element the loop goes to next. -/
def visits (f : α → σ → Except ε Unit × σ) : List α → σ → List (Option α × σ)
  | [], s => [(none, s)]
  | x :: l, s =>
    (some x, s) ::
      match f x s with
      | (.error _, _) => []
      | (.ok (), s) => visits f l s

/-- In every state a loop passes through, its invariant holds of the part it has gone through. -/
theorem visits_prefix {f : α → σ → Except ε Unit × σ} {I : List α → σ → Prop} {l : List α}
    (hok : ∀ pre x post s, l = pre ++ x :: post → I pre s → (f x s).1 = .ok () →
      I (pre ++ [x]) (f x s).2)
    {s : σ} (h : I [] s) {v : Option α × σ} (hv : v ∈ visits f l s) :
    ∃ pre, I pre v.2 ∧ ∀ x, v.1 = some x → ∃ post, l = pre ++ x :: post := by
  suffices hall : ∀ done rest s, l = done ++ rest → I done s → v ∈ visits f rest s →
      ∃ pre, I pre v.2 ∧ ∀ x, v.1 = some x → ∃ post, l = pre ++ x :: post from
    hall [] l s rfl h hv
  intro done rest
  induction rest generalizing done with
  | nil =>
    intro s _ hI hv
    rw [visits, List.mem_singleton] at hv
    subst hv
    exact ⟨done, hI, by simp⟩
  | cons x rest ih =>
    intro s hxs hI hv
    rw [visits] at hv
    rcases List.mem_cons.mp hv with rfl | hv
    · refine ⟨done, hI, ?_⟩
      intro y hy
      cases hy
      exact ⟨rest, hxs⟩
    · cases hfx : f x s with
      | mk r t =>
        rw [hfx] at hv
        cases r with
        | error e => cases hv
        | ok u =>
          have hstep := hok done x rest s hxs hI (by rw [hfx])
          rw [hfx] at hstep
          exact ih (done ++ [x]) t (by rw [hxs, List.append_assoc]; rfl) hstep hv

/-- A loop that succeeds ends in the last state it passes through. -/
theorem mem_visits {f : α → σ → Except ε Unit × σ} {l : List α} {s : σ}
    (hok : (forEach f l s).1 = .ok ()) : (none, (forEach f l s).2) ∈ visits f l s := by
  induction l generalizing s with
  | nil => exact List.mem_singleton_self _
  | cons x l ih =>
    rw [forEach] at hok ⊢
    rw [visits]
    apply List.mem_cons_of_mem
    cases hfx : f x s with
    | mk r t =>
      rw [hfx] at hok
      cases r with
      | error e => cases hok
      | ok u => exact ih hok

theorem forEach_map (f : β → σ → Except ε Unit × σ) (g : α → β) (l : List α) (s : σ) :
    forEach f (l.map g) s = forEach (fun x => f (g x)) l s := by
  induction l generalizing s with
  | nil => rfl
  | cons x l ih =>
    rw [List.map_cons, forEach, forEach]
    split
    · rfl
    · exact ih _

/-- Two loops whose bodies end alike and keep their states related end alike, in related
states. -/
theorem forEach_simulation {τ : Type} {f : α → σ → Except ε Unit × σ}
    {g : α → τ → Except ε Unit × τ} (R : σ → τ → Prop) {l : List α}
    (hbody : ∀ x ∈ l, ∀ s t, R s t → (f x s).1 = (g x t).1 ∧ R (f x s).2 (g x t).2) {s : σ}
    {t : τ} (h : R s t) :
    (forEach f l s).1 = (forEach g l t).1 ∧ R (forEach f l s).2 (forEach g l t).2 := by
  induction l generalizing s t with
  | nil => exact ⟨rfl, h⟩
  | cons x l ih =>
    obtain ⟨hfst, hR⟩ := hbody x List.mem_cons_self s t h
    rcases forEach_cons_cases f x l s with ⟨e, hb, he⟩ | ⟨hb, he⟩
    · rw [he, forEach_cons_error (hfst.symm.trans hb)]
      exact ⟨rfl, hR⟩
    · rw [he, forEach_cons_ok (hfst.symm.trans hb)]
      exact ih (fun y hy => hbody y (List.mem_cons_of_mem _ hy)) hR

/-- Two steps end alike, in related states, unless one of them ends with the fault `fatal`. -/
def Alike {τ : Type} (fatal : ε) (R : σ → τ → Prop) (r : Except ε Unit × σ)
    (r' : Except ε Unit × τ) : Prop :=
  r.1 = .error fatal ∨ r'.1 = .error fatal ∨ (r.1 = r'.1 ∧ R r.2 r'.2)

theorem forEach_alike {τ : Type} {fatal : ε} {f : α → σ → Except ε Unit × σ}
    {g : α → τ → Except ε Unit × τ} (R : σ → τ → Prop) {l : List α}
    (hbody : ∀ x ∈ l, ∀ s t, R s t → Alike fatal R (f x s) (g x t)) {s : σ} {t : τ} (h : R s t) :
    Alike fatal R (forEach f l s) (forEach g l t) := by
  induction l generalizing s t with
  | nil => exact Or.inr (Or.inr ⟨rfl, h⟩)
  | cons x l ih =>
    rcases hbody x List.mem_cons_self s t h with hf | hg | ⟨hfst, hR⟩
    · exact Or.inl (by rw [forEach_cons_error hf])
    · exact Or.inr (Or.inl (by rw [forEach_cons_error hg]))
    · rcases forEach_cons_cases f x l s with ⟨e, hb, he⟩ | ⟨hb, he⟩
      · rw [he, forEach_cons_error (hfst.symm.trans hb)]
        exact Or.inr (Or.inr ⟨rfl, hR⟩)
      · rw [he, forEach_cons_ok (hfst.symm.trans hb)]
        exact ih (fun y hy => hbody y (List.mem_cons_of_mem _ hy)) hR

/-- In `l.zipIdx` the elements before another are those with a smaller index. -/
theorem zipIdx_split {l : List α} {pre post : List (α × Nat)} {x : α × Nat}
    (h : l.zipIdx = pre ++ x :: post) :
    l[x.2]? = some x.1 ∧ ∀ y, y ∈ pre ↔ y.2 < x.2 ∧ l[y.2]? = some y.1 := by
  have hx : l.zipIdx[pre.length]? = some x := by
    rw [h, List.getElem?_append_right (Nat.le_refl _), Nat.sub_self, List.getElem?_cons_zero]
  rw [List.getElem?_zipIdx, Option.map_eq_some_iff] at hx
  obtain ⟨a, ha, rfl⟩ := hx
  rw [Nat.zero_add]
  refine ⟨ha, fun y => ⟨fun hy => ?_, fun ⟨hlt, hy⟩ => ?_⟩⟩
  · obtain ⟨j, hj⟩ := List.mem_iff_getElem?.mp hy
    have hlt : j < pre.length := (List.getElem?_eq_some_iff.mp hj).1
    have hmem : l.zipIdx[j]? = some y := by rw [h, List.getElem?_append_left hlt, hj]
    rw [List.getElem?_zipIdx, Option.map_eq_some_iff] at hmem
    obtain ⟨b, hb, rfl⟩ := hmem
    rw [Nat.zero_add]
    exact ⟨hlt, hb⟩
  · have hmem : l.zipIdx[y.2]? = some y := by
      rw [List.getElem?_zipIdx, hy, Option.map_some, Nat.zero_add]
    rw [h, List.getElem?_append_left hlt] at hmem
    exact List.mem_of_getElem? hmem

/-- The part of `List.range n` before an element. -/
theorem range_split {n j : Nat} {pre post : List Nat} (h : List.range n = pre ++ j :: post) :
    pre = List.range j ∧ j < n := by
  have hj : (List.range n)[pre.length]? = some j := by simp [h]
  obtain ⟨hlt, heq⟩ := List.getElem?_eq_some_iff.mp hj
  rw [List.getElem_range] at heq
  rw [List.length_range] at hlt
  have hpre : pre = (List.range n).take pre.length := by simp [h]
  rw [List.take_range, Nat.min_eq_left (Nat.le_of_lt hlt), heq] at hpre
  exact ⟨hpre, heq ▸ hlt⟩

theorem forEach_append (f : α → σ → Except ε Unit × σ) (l ys : List α) (s : σ) :
    forEach f (l ++ ys) s =
      match forEach f l s with
      | (.error e, t) => (.error e, t)
      | (.ok (), t) => forEach f ys t := by
  induction l generalizing s with
  | nil => rfl
  | cons x l ih =>
    rcases forEach_cons_cases f x (l ++ ys) s with ⟨e, hb, he⟩ | ⟨hb, he⟩
    · rw [List.cons_append, he, forEach_cons_error hb]
    · rw [List.cons_append, he, forEach_cons_ok hb, ih]

/-! ## Log facts -/

/-- Whether a step ended without a fault. -/
def succeeded (r : Except ε α × σ) : Bool :=
  match r.1 with
  | .ok _ => true
  | .error _ => false

@[simp]
theorem succeeded_ok (a : α) (s : σ) : succeeded ((.ok a, s) : Except ε α × σ) = true := rfl

@[simp]
theorem succeeded_error (e : ε) (s : σ) :
    succeeded ((.error e, s) : Except ε α × σ) = false := rfl

/-- The step from `s` to `r` added entries to the log, and `Q` holds of them. -/
def Emits (log : σ → List ο) (Q : Bool → List ο → Prop) (s : σ) (r : Except ε α × σ) : Prop :=
  ∃ new, log r.2 = new ++ log s ∧ Q (succeeded r) new

/-- `Q` holds of no entries, and passes to a step followed by another. -/
structure Composable (Q : Bool → List ο → Prop) : Prop where
  nil : Q true []
  append : ∀ {b first second}, Q true first → Q b second → Q b (second ++ first)

/-- A first step that succeeded, followed by a second one. -/
theorem Emits.seq {log : σ → List ο} {Q : Bool → List ο → Prop} (hQ : Composable Q) {s : σ}
    {r : Except ε α × σ} {r' : Except ε β × σ} (h : Emits log Q s r)
    (hok : succeeded r = true) (h' : Emits log Q r.2 r') : Emits log Q s r' := by
  obtain ⟨first, hlog, hfirst⟩ := h
  obtain ⟨second, hlog', hsecond⟩ := h'
  rw [hok] at hfirst
  refine ⟨second ++ first, ?_, hQ.append hfirst hsecond⟩
  rw [hlog', hlog, List.append_assoc]

/-- A step with the same log as another one. -/
theorem Emits.congr {τ : Type} {log : σ → List ο} {log' : τ → List ο} {Q : Bool → List ο → Prop}
    {s : σ} {s' : τ} {r : Except ε α × σ} {r' : Except ε β × τ} (h : Emits log Q s r)
    (hs : log' s' = log s) (hr : log' r'.2 = log r.2) (hok : succeeded r' = succeeded r) :
    Emits log' Q s' r' := by
  obtain ⟨new, hlog, hnew⟩ := h
  exact ⟨new, by rw [hr, hs, hlog], by rw [hok]; exact hnew⟩

/-- A loop emits what its body emits, where the body may rely on an invariant about the part
of the list it has gone through. -/
theorem Emits.forEach {log : σ → List ο} {Q : Bool → List ο → Prop} (hQ : Composable Q)
    {f : α → σ → Except ε Unit × σ} (I : List α → σ → Prop) {l : List α}
    (hbody : ∀ pre x post s, l = pre ++ x :: post → I pre s →
      Emits log Q s (f x s) ∧ ((f x s).1 = .ok () → I (pre ++ [x]) (f x s).2))
    {s : σ} (h : I [] s) : Emits log Q s (forEach f l s) := by
  suffices hall : ∀ done rest s, l = done ++ rest → I done s →
      Emits log Q s (Faults.forEach f rest s) from hall [] l s rfl h
  intro done rest
  induction rest generalizing done with
  | nil =>
    intro s _ _
    exact ⟨[], rfl, hQ.nil⟩
  | cons x rest ih =>
    intro s hxs hI
    obtain ⟨hx, hkeep⟩ := hbody done x rest s hxs hI
    rcases forEach_cons_cases f x rest s with ⟨e, hb, he⟩ | ⟨hb, he⟩
    · rw [he]
      exact hx.congr rfl rfl (by simp [succeeded, hb])
    · rw [he]
      apply hx.seq hQ (by simp [succeeded, hb])
      exact ih (done ++ [x]) (f x s).2 (by rw [hxs, List.append_assoc]; rfl) (hkeep hb)

/-- A step faults exactly when one of the entries it logged is bad. -/
def blame (good : ο → Prop) (ok : Bool) (new : List ο) : Prop :=
  ok = true ↔ ∀ o ∈ new, good o

theorem blame_composable (good : ο → Prop) : Composable (blame good) where
  nil := by simp [blame]
  append := by
    intro b first second hfirst hsecond
    have hall : ∀ o ∈ first, good o := hfirst.mp rfl
    unfold blame at hsecond ⊢
    rw [hsecond]
    constructor
    · intro h o ho
      rcases List.mem_append.mp ho with ho | ho
      · exact h o ho
      · exact hall o ho
    · intro h o ho
      exact h o (List.mem_append_left _ ho)

/-- `P` holds of all entries a step logged exactly when `C` does. -/
def matching (P C : ο → Prop) (_ : Bool) (new : List ο) : Prop :=
  (∀ o ∈ new, P o) ↔ ∀ o ∈ new, C o

theorem matching_composable (P C : ο → Prop) : Composable (matching P C) where
  nil := by simp [matching]
  append := by
    intro b first second hfirst hsecond
    unfold matching at hfirst hsecond ⊢
    simp only [List.mem_append, or_imp, forall_and, hfirst, hsecond]

/-! ## Results -/

/-- A loop that collects results succeeds with one result for each element. -/
theorem mapM_ok_iff {f : α → Except ε β} {l : List α} {l' : List β} :
    l.mapM f = .ok l' ↔ List.Forall₂ (fun a b => f a = .ok b) l l' := by
  induction l generalizing l' with
  | nil =>
    rw [List.forall₂_nil_left_iff]
    exact ⟨fun h => (Except.ok.inj h).symm, fun h => h ▸ rfl⟩
  | cons a l ih =>
    rw [List.mapM_cons, List.forall₂_cons_left_iff]
    cases ha : f a with
    | error e => exact ⟨fun h => (by cases h), fun ⟨b, _, hb, _⟩ => (by cases hb)⟩
    | ok b =>
      cases hl : l.mapM f with
      | error e =>
        refine ⟨fun h => (by cases h), fun ⟨_, l', _, hl', _⟩ => ?_⟩
        rw [ih.mpr hl'] at hl
        cases hl
      | ok rest =>
        constructor
        · intro h
          exact ⟨b, rest, rfl, ih.mp hl, (Except.ok.inj h).symm⟩
        · rintro ⟨b', l'', hb, hl'', rfl⟩
          rw [ih.mpr hl''] at hl
          cases hb
          cases hl
          rfl
theorem exists_mapM_ok_iff {f : α → Except ε β} {l : List α} :
    (∃ l', l.mapM f = .ok l') ↔ ∀ a ∈ l, ∃ b, f a = .ok b := by
  simp only [mapM_ok_iff]
  induction l with
  | nil => exact iff_of_true ⟨[], .nil⟩ (fun _ h => absurd h List.not_mem_nil)
  | cons a l ih =>
    rw [List.forall_mem_cons, ← ih]
    constructor
    · rintro ⟨_, hall⟩
      obtain ⟨b, l', hb, hl', _⟩ := List.forall₂_cons_left_iff.mp hall
      exact ⟨⟨b, hb⟩, l', hl'⟩
    · rintro ⟨⟨b, hb⟩, l', hl'⟩
      exact ⟨b :: l', .cons hb hl'⟩

/-! ## Histories -/

/-- Every entry of the log meets `rule` together with the entries older than it. -/
def Chronicle (rule : ο → List ο → Prop) : List ο → Prop
  | [] => True
  | o :: older => rule o older ∧ Chronicle rule older

theorem Chronicle.of_append {rule : ο → List ο → Prop} {newer older : List ο}
    (h : Chronicle rule (newer ++ older)) : Chronicle rule older := by
  induction newer with
  | nil => exact h
  | cons o newer ih => exact ih h.2

/-- Entries that meet the rule whatever is older do not matter. -/
theorem chronicle_append {rule : ο → List ο → Prop} {newer : List ο}
    (h : ∀ o ∈ newer, ∀ older, rule o older) (older : List ο) :
    Chronicle rule (newer ++ older) ↔ Chronicle rule older := by
  induction newer with
  | nil => exact Iff.rfl
  | cons o newer ih =>
    rw [List.cons_append, Chronicle, ih fun x hx => h x (List.mem_cons_of_mem _ hx)]
    exact and_iff_right (h o List.mem_cons_self _)

end Faults
