import Mathlib.Computability.Language

/-!
# Words with known and unknown parts

Products of languages in which single letters of a set (`letter`) or known words alternate with
words of which nothing is known (`⊤`).
-/

namespace Words

variable {α : Type}

/-- The words of one letter out of `S`. -/
def letter (S : Set α) : Language α := fun word => ∃ a ∈ S, word = [a]

theorem cons_mem_letter_mul {S : Set α} {L : Language α} {a : α} {word : List α} :
    a :: word ∈ letter S * L ↔ a ∈ S ∧ word ∈ L := by
  rw [Language.mem_mul]
  constructor
  · rintro ⟨_, ⟨b, hb, rfl⟩, rest, hrest, heq⟩
    obtain ⟨rfl, rfl⟩ := List.cons.inj heq
    exact ⟨hb, hrest⟩
  · rintro ⟨ha, hword⟩
    exact ⟨[a], ⟨a, ha, rfl⟩, word, hword, rfl⟩

theorem nil_not_mem_letter_mul (S : Set α) (L : Language α) : [] ∉ letter S * L := by
  rw [Language.mem_mul]
  rintro ⟨_, ⟨a, _, rfl⟩, rest, _, heq⟩
  cases heq

theorem mem_top_mul {L : Language α} {word : List α} :
    word ∈ ⊤ * L ↔ ∃ rest, rest <:+ word ∧ rest ∈ L := by
  rw [Language.mem_mul]
  constructor
  · rintro ⟨start, _, rest, hrest, rfl⟩
    exact ⟨rest, List.suffix_append start rest, hrest⟩
  · rintro ⟨rest, ⟨start, rfl⟩, hrest⟩
    exact ⟨start, trivial, rest, hrest, rfl⟩

theorem top_mul_top_mul (L : Language α) : (⊤ : Language α) * (⊤ * L) = ⊤ * L := by
  ext word
  rw [mem_top_mul, mem_top_mul]
  constructor
  · rintro ⟨rest, hrest, hmem⟩
    obtain ⟨last, hlast, hL⟩ := mem_top_mul.mp hmem
    exact ⟨last, hlast.trans hrest, hL⟩
  · rintro ⟨rest, hrest, hL⟩
    exact ⟨word, List.suffix_refl word, mem_top_mul.mpr ⟨rest, hrest, hL⟩⟩

theorem mul_top_mul_top (L : Language α) : L * ⊤ * (⊤ : Language α) = L * ⊤ := by
  have hall : (⊤ : Language α) * ⊤ = ⊤ := by
    ext word
    exact ⟨fun _ => trivial, fun _ => mem_top_mul.mpr ⟨[], List.nil_suffix, trivial⟩⟩
  rw [mul_assoc, hall]

theorem singleton_mul_singleton (u v : List α) : ({u} : Language α) * {v} = {u ++ v} := by
  ext word
  rw [Language.mem_mul]
  constructor
  · rintro ⟨a, ha, b, hb, rfl⟩
    obtain rfl : a = u := ha
    obtain rfl : b = v := hb
    rfl
  · intro hword
    obtain rfl : word = u ++ v := hword
    exact ⟨u, rfl, v, rfl, rfl⟩

end Words
