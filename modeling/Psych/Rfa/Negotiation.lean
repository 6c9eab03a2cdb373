import Mathlib.Data.Fintype.Order
import Mathlib.Data.Prod.Lex
import Mathlib.Order.CompletePartialOrder
import Psych.Library.MarkedMinimum
import Psych.Rfa.Setup

/-!
# The negotiated version

After the sessions are set up, the version of the provider is the least of the negotiated ones. The
version 0.0, which also means that none was negotiated yet, is the exception: it is lost when
another session follows.
-/

namespace Psych

/-- Versions are ordered by the major number, then by the minor one. -/
def RwfVersion.key (v : RwfVersion) : Fin 256 ×ₗ Fin 256 := toLex (v.major, v.minor)

theorem RwfVersion.key_injective : Function.Injective RwfVersion.key := by
  intro v w h
  obtain ⟨hmajor, hminor⟩ := Prod.mk.inj (toLex.injective h)
  cases v
  cases w
  congr

theorem RwfVersion.key_eq_bot_iff {v : RwfVersion} : v.key = ⊥ ↔ v = ⟨0, 0⟩ :=
  RwfVersion.key_injective.eq_iff' rfl

/-- The two cases of the comparison are those of the lexicographic order. -/
theorem RwfVersion.key_lt_iff {v w : RwfVersion} :
    v.key < w.key ↔ (w.major = v.major ∧ v.minor < w.minor) ∨ v.major < w.major := by
  unfold RwfVersion.key
  rw [Prod.Lex.toLex_lt_toLex, or_comm, eq_comm]

theorem RwfVersion.key_degrade (min rwf : RwfVersion) :
    (min.degrade rwf).key = MarkedMinimum.step min.key rwf.key := by
  have hmarker : (min.major = 0 ∧ min.minor = 0) ↔ min.key = ⊥ := by
    rw [RwfVersion.key_eq_bot_iff]
    cases min
    simp
  unfold RwfVersion.degrade MarkedMinimum.step
  simp only [hmarker, ← RwfVersion.key_lt_iff, ← apply_ite RwfVersion.key]

theorem key_foldl_degrade (versions : List RwfVersion) (min : RwfVersion) :
    (versions.foldl RwfVersion.degrade min).key =
      (versions.map RwfVersion.key).foldl MarkedMinimum.step min.key := by
  induction versions generalizing min with
  | nil => rfl
  | cons rwf versions ih =>
    rw [List.foldl_cons, ih, RwfVersion.key_degrade, List.map_cons, List.foldl_cons]

/-- The version of the provider is the least of those the sessions have negotiated, if any has. -/
def LeastNegotiated (versions : List RwfVersion) (s : ProviderSetup) : Prop :=
  versions ≠ [] → IsLeast {v | v ∈ versions.map RwfVersion.key} s.minRwfVersion.key

theorem leastNegotiated_iff {versions : List RwfVersion} {s : ProviderSetup}
    (h : s.minRwfVersion = versions.foldl RwfVersion.degrade ⟨0, 0⟩) :
    LeastNegotiated versions s ↔ ⟨0, 0⟩ ∉ versions ∨ versions.getLast? = some ⟨0, 0⟩ := by
  have hne : versions ≠ [] ↔ versions.map RwfVersion.key ≠ [] :=
    not_congr List.map_eq_nil_iff.symm
  have hmem : ⊥ ∈ versions.map RwfVersion.key ↔ ⟨0, 0⟩ ∈ versions := by
    simp [RwfVersion.key_eq_bot_iff]
  have hlast : (versions.map RwfVersion.key).getLast? = some ⊥ ↔
      versions.getLast? = some ⟨0, 0⟩ := by
    rw [List.getLast?_map, Option.map_eq_some_iff]
    simp only [RwfVersion.key_eq_bot_iff, exists_eq_right]
  unfold LeastNegotiated
  rw [h, key_foldl_degrade, hne, ← hmem, ← hlast]
  exact MarkedMinimum.isLeast_run_iff

/-- The version is the least one exactly where no session negotiated 0.0, or the last one did. -/
theorem minRwfVersion_least_iff {calls : List SetupCalls}
    (h : (providerInit true calls).1 = .ok true) :
    LeastNegotiated (calls.filterMap SetupCalls.negotiated) (providerInit true calls).2 ↔
      ⟨0, 0⟩ ∉ calls.filterMap SetupCalls.negotiated ∨
        (calls.filterMap SetupCalls.negotiated).getLast? = some ⟨0, 0⟩ := by
  rcases providerInit_cases true calls with ⟨hfalse, _⟩ | ⟨_, _, _, hsetUp⟩ | ⟨_, _, herror⟩
  · cases hfalse
  · exact leastNegotiated_iff hsetUp.minRwfVersion
  · rw [herror] at h
    cases h

/-- Sessions whose calls all succeed but the logins that are `none`. -/
def setupOf (logins : List (Option RwfVersion)) : List SetupCalls :=
  logins.map fun login => { login := login }

theorem sample_minRwfVersion_least :
    LeastNegotiated ((setupOf [some ⟨14, 1⟩, none, some ⟨14, 0⟩]).filterMap SetupCalls.negotiated)
      (providerInit true (setupOf [some ⟨14, 1⟩, none, some ⟨14, 0⟩])).2 :=
  (minRwfVersion_least_iff rfl).mpr (Or.inl (by decide))

/-- A session that negotiates 0.0 is forgotten when one that negotiates 14.1 follows. -/
theorem zero_version_forgotten :
    (providerInit true (setupOf [some ⟨0, 0⟩, some ⟨14, 1⟩])).1 = .ok true ∧
    ¬ LeastNegotiated
      ((setupOf [some ⟨0, 0⟩, some ⟨14, 1⟩]).filterMap SetupCalls.negotiated)
      (providerInit true (setupOf [some ⟨0, 0⟩, some ⟨14, 1⟩])).2 := by
  refine ⟨rfl, fun h => ?_⟩
  have hle := mem_lowerBounds.mp (h (List.cons_ne_nil _ _)).2 (RwfVersion.key ⟨0, 0⟩)
    List.mem_cons_self
  revert hle
  decide

end Psych
