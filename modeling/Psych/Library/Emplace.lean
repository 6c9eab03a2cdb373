import Mathlib.Data.List.Basic

/-!
# Maps that keep the first value

A map is the list of its entries, in the order in which they came. `emplace` keeps the value a
key has and adds an entry for a new key; `emplaceAll` does so for a list of entries. A key of
the result has its old value, or the first one in the list (`lookup_emplaceAll`).
-/

namespace Emplace

variable {κ ν μ : Type} [BEq κ]

/-- `m.emplace (k, v)`. -/
def emplace (m : List (κ × ν)) (entry : κ × ν) : List (κ × ν) :=
  if (m.lookup entry.1).isSome then m else m ++ [entry]

def emplaceAll (m entries : List (κ × ν)) : List (κ × ν) := entries.foldl emplace m

@[simp]
theorem emplaceAll_nil (m : List (κ × ν)) : emplaceAll m [] = m := rfl

@[simp]
theorem emplaceAll_cons (m : List (κ × ν)) (entry : κ × ν) (entries : List (κ × ν)) :
    emplaceAll m (entry :: entries) = emplaceAll (emplace m entry) entries := rfl

theorem emplace_of_none {m : List (κ × ν)} {entry : κ × ν} (h : m.lookup entry.1 = none) :
    emplace m entry = m ++ [entry] := by
  unfold emplace
  rw [h]
  rfl

theorem mem_of_lookup [LawfulBEq κ] {m : List (κ × ν)} {k : κ} {v : ν}
    (h : m.lookup k = some v) : (k, v) ∈ m := by
  obtain ⟨before, after, rfl, _⟩ := List.lookup_eq_some_iff.mp h
  simp

theorem lookup_emplace [LawfulBEq κ] (m : List (κ × ν)) (entry : κ × ν) (k : κ) :
    (emplace m entry).lookup k = (m.lookup k).or ([entry].lookup k) := by
  unfold emplace
  split
  · rename_i hsome
    obtain ⟨v, hv⟩ := Option.isSome_iff_exists.mp hsome
    by_cases hk : k = entry.1
    · rw [hk, hv]
      rfl
    · have hnone : [entry].lookup k = none := by
        rw [List.lookup_cons, beq_false_of_ne hk]
        rfl
      rw [hnone, Option.or_none]
  · exact List.lookup_append

/-- Of several values of a key the oldest stays. -/
theorem lookup_emplaceAll [LawfulBEq κ] (m entries : List (κ × ν)) (k : κ) :
    (emplaceAll m entries).lookup k = (m.lookup k).or (entries.lookup k) := by
  induction entries generalizing m with
  | nil => rw [emplaceAll_nil, List.lookup_nil, Option.or_none]
  | cons entry entries ih =>
    have hcons : (entry :: entries).lookup k = ([entry].lookup k).or (entries.lookup k) := by
      rw [← List.lookup_append]
      rfl
    rw [emplaceAll_cons, ih, lookup_emplace, Option.or_assoc, hcons]

/-- The values of a map, changed one by one. -/
theorem lookup_map_values (f : ν → μ) (m : List (κ × ν)) (k : κ) :
    (m.map fun entry => (entry.1, f entry.2)).lookup k = (m.lookup k).map f := by
  induction m with
  | nil => rfl
  | cons entry m ih =>
    rw [List.map_cons, List.lookup_cons, List.lookup_cons, ih]
    split <;> rfl

/-- The entries made for a list, looked up by their key. -/
theorem lookup_entries [LawfulBEq κ] {α : Type} (key : α → κ) (value : α → ν) (l : List α) (k : κ) :
    (l.map fun x => (key x, value x)).lookup k = (l.find? fun x => key x == k).map value := by
  induction l with
  | nil => rfl
  | cons x l ih =>
    rw [List.map_cons, List.lookup_cons, List.find?_cons, ih]
    by_cases hk : k = key x
    · simp [hk]
    · rw [beq_false_of_ne hk, beq_false_of_ne (Ne.symm hk)]

end Emplace
