import Psych.Library.Faults
import Mathlib.Data.List.Infix

/-!
# Lifetimes of resources

A log of acquisitions and releases, newest entry first, is `Tidy` for a relation `needs`
when what is acquired was not held and has all it needs, and what is released was held and is
needed by nothing that is still held.

* `Tidy.held_of_needs`: at any time, what is held has all it needs.
* `Tidy.balance`: a resource is acquired and released in turn.
* `Tidy.last`: where nothing is left, a resource that all others need is released last.
-/

namespace Lifetimes

open Faults

variable {ρ : Type}

inductive Act (ρ : Type) where
  | acquire (r : ρ)
  | release (r : ρ)
deriving DecidableEq

/-- The resource is held after the log. -/
def Held : List (Act ρ) → ρ → Prop
  | [], _ => False
  | .acquire q :: older, r => q = r ∨ Held older r
  | .release q :: older, r => q ≠ r ∧ Held older r

/-- The act is in order after the older ones. -/
def permitted (needs : ρ → ρ → Prop) : Act ρ → List (Act ρ) → Prop
  | .acquire r, older => ¬ Held older r ∧ ∀ q, needs r q → Held older q
  | .release r, older => Held older r ∧ ∀ q, needs q r → ¬ Held older q

def Tidy (needs : ρ → ρ → Prop) : List (Act ρ) → Prop := Chronicle (permitted needs)

variable {needs : ρ → ρ → Prop} {log : List (Act ρ)}

theorem Tidy.nil : Tidy needs [] := trivial

theorem Tidy.acquire (h : Tidy needs log) {r : ρ} (hfree : ¬ Held log r)
    (hneeds : ∀ q, needs r q → Held log q) : Tidy needs (.acquire r :: log) :=
  ⟨⟨hfree, hneeds⟩, h⟩

theorem Tidy.release (h : Tidy needs log) {r : ρ} (hheld : Held log r)
    (hneeded : ∀ q, needs q r → ¬ Held log q) : Tidy needs (.release r :: log) :=
  ⟨⟨hheld, hneeded⟩, h⟩

theorem Tidy.of_suffix (h : Tidy needs log) {older : List (Act ρ)}
    (hsuffix : older <:+ log) : Tidy needs older := by
  obtain ⟨newer, rfl⟩ := hsuffix
  exact h.of_append

/-- At any time, what is held has all it needs. -/
theorem Tidy.held_of_needs (h : Tidy needs log) {r q : ρ} (hr : Held log r)
    (hneeds : needs r q) : Held log q := by
  induction log with
  | nil => exact hr.elim
  | cons act older ih =>
    obtain ⟨hact, hrest⟩ := h
    cases act with
    | acquire p =>
      rcases hr with rfl | hr
      · exact Or.inr (hact.2 q hneeds)
      · exact Or.inr (ih hrest hr)
    | release p =>
      obtain ⟨_, hr⟩ := hr
      refine ⟨?_, ih hrest hr⟩
      rintro rfl
      exact hact.2 r hneeds hr

section Counts

variable [DecidableEq ρ]

/-- A resource is acquired and released in turn. -/
theorem Tidy.balance (h : Tidy needs log) (r : ρ) :
    (Held log r ∧ log.count (.acquire r) = log.count (.release r) + 1) ∨
    (¬ Held log r ∧ log.count (.acquire r) = log.count (.release r)) := by
  induction log with
  | nil => exact Or.inr ⟨id, rfl⟩
  | cons act older ih =>
    obtain ⟨hact, hrest⟩ := h
    have hbalance := ih hrest
    cases act with
    | acquire p =>
      have hrelease : (Act.acquire p :: older).count (.release r) = older.count (.release r) :=
        List.count_cons_of_ne (by simp)
      rw [hrelease]
      by_cases hpr : p = r
      · subst hpr
        rcases hbalance with ⟨hheld, _⟩ | ⟨_, hcount⟩
        · exact absurd hheld hact.1
        · exact Or.inl ⟨Or.inl rfl, by rw [List.count_cons_self, hcount]⟩
      · rw [List.count_cons_of_ne (by simpa using hpr)]
        exact hbalance.imp (fun hb => ⟨Or.inr hb.1, hb.2⟩)
          fun hb => ⟨fun hheld => hheld.elim hpr hb.1, hb.2⟩
    | release p =>
      have hacquire : (Act.release p :: older).count (.acquire r) = older.count (.acquire r) :=
        List.count_cons_of_ne (by simp)
      rw [hacquire]
      by_cases hpr : p = r
      · subst hpr
        rcases hbalance with ⟨_, hcount⟩ | ⟨hfree, _⟩
        · exact Or.inr ⟨fun hheld => hheld.1 rfl, by rw [List.count_cons_self, hcount]⟩
        · exact absurd hact.1 hfree
      · rw [List.count_cons_of_ne (by simpa using hpr)]
        exact hbalance.imp (fun hb => ⟨⟨hpr, hb.1⟩, hb.2⟩)
          fun hb => ⟨fun hheld => hb.1 hheld.2, hb.2⟩

theorem Tidy.released (h : Tidy needs log) {r : ρ} (hfree : ¬ Held log r) :
    log.count (.release r) = log.count (.acquire r) := by
  rcases h.balance r with ⟨hheld, _⟩ | ⟨_, hcount⟩
  · exact absurd hheld hfree
  · exact hcount.symm

end Counts

/-- Where nothing is left, a resource that all others need is released last. -/
theorem Tidy.last (h : Tidy needs log) {root : ρ}
    (hroot : ∀ r, r ≠ root → needs r root) (hfree : ∀ r, ¬ Held log r) (hne : log ≠ []) :
    log.head? = some (.release root) := by
  cases log with
  | nil => exact absurd rfl hne
  | cons act older =>
    obtain ⟨hact, hrest⟩ := h
    cases act with
    | acquire r => exact absurd (Or.inl rfl) (hfree r)
    | release r =>
      by_cases hr : r = root
      · rw [hr, List.head?_cons]
      · have hheld : Held older root := Tidy.held_of_needs hrest hact.1 (hroot r hr)
        exact absurd ⟨hr, hheld⟩ (hfree root)

end Lifetimes
