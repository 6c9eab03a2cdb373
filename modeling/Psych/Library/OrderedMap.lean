import Mathlib.Data.List.Basic
import Mathlib.Data.List.Lex
import Mathlib.Data.List.Nodup
import Mathlib.Order.Lattice

/-!
# Maps in key order

A map is the list of its entries in the order of their keys, so that two maps with the same
lookups are equal (`ext`). `emplace` keeps the value of a key that is there, `assign` replaces
it: a map made of a list of entries holds the first or the last value of every key
(`lookup_firsts`, `lookup_lasts`).
-/

namespace OrderedMap

variable {κ ν : Type} [LinearOrder κ]

/-- Every key once, in order. -/
def Sorted (m : List (κ × ν)) : Prop := m.Pairwise fun a b => a.1 < b.1

/-- Adds an entry; `f` says what becomes of the value that the key has. -/
def insertWith (f : ν → ν) (entry : κ × ν) : List (κ × ν) → List (κ × ν)
  | [] => [entry]
  | e :: m =>
    if entry.1 < e.1 then entry :: e :: m
    else if entry.1 = e.1 then (e.1, f e.2) :: m
    else e :: insertWith f entry m

/-- `m.emplace (k, v)`. -/
def emplace (m : List (κ × ν)) (entry : κ × ν) : List (κ × ν) := insertWith id entry m

/-- `m[k] = v`. -/
def assign (m : List (κ × ν)) (entry : κ × ν) : List (κ × ν) :=
  insertWith (fun _ => entry.2) entry m

/-- The map of a list whose entries are emplaced one after another. -/
def firsts (l : List (κ × ν)) : List (κ × ν) := l.foldl emplace []

/-- The map of a list whose entries are assigned one after another. -/
def lasts (l : List (κ × ν)) : List (κ × ν) := l.foldl assign []

/-! ## Order -/

theorem sorted_nil : Sorted ([] : List (κ × ν)) := List.Pairwise.nil

theorem sorted_cons {e : κ × ν} {m : List (κ × ν)} :
    Sorted (e :: m) ↔ (∀ x ∈ m, e.1 < x.1) ∧ Sorted m :=
  List.pairwise_cons

theorem mem_insertWith {f : ν → ν} {entry x : κ × ν} {m : List (κ × ν)}
    (h : x ∈ insertWith f entry m) : x.1 = entry.1 ∨ ∃ y ∈ m, y.1 = x.1 := by
  induction m with
  | nil => exact Or.inl (congrArg Prod.fst (List.mem_singleton.mp h))
  | cons e m ih =>
    unfold insertWith at h
    split_ifs at h with hlt heq
    · rcases List.mem_cons.mp h with rfl | h
      · exact Or.inl rfl
      · exact Or.inr ⟨x, h, rfl⟩
    · rcases List.mem_cons.mp h with rfl | h
      · exact Or.inl heq.symm
      · exact Or.inr ⟨x, List.mem_cons_of_mem _ h, rfl⟩
    · rcases List.mem_cons.mp h with rfl | h
      · exact Or.inr ⟨x, List.mem_cons_self, rfl⟩
      · rcases ih h with hx | ⟨y, hy, hx⟩
        · exact Or.inl hx
        · exact Or.inr ⟨y, List.mem_cons_of_mem _ hy, hx⟩

theorem mem_assign {entry x : κ × ν} {m : List (κ × ν)} (h : x ∈ assign m entry) :
    x = entry ∨ x ∈ m := by
  unfold assign at h
  induction m with
  | nil => exact Or.inl (List.mem_singleton.mp h)
  | cons e m ih =>
    unfold insertWith at h
    split_ifs at h with hlt heq
    · exact (List.mem_cons.mp h)
    · rcases List.mem_cons.mp h with rfl | h
      · exact Or.inl (Prod.ext heq.symm rfl)
      · exact Or.inr (List.mem_cons_of_mem _ h)
    · rcases List.mem_cons.mp h with rfl | h
      · exact Or.inr List.mem_cons_self
      · exact (ih h).imp_right (List.mem_cons_of_mem _)

theorem sorted_insertWith {f : ν → ν} {entry : κ × ν} {m : List (κ × ν)} (h : Sorted m) :
    Sorted (insertWith f entry m) := by
  induction m with
  | nil => exact List.pairwise_singleton _ _
  | cons e m ih =>
    obtain ⟨hall, hm⟩ := sorted_cons.mp h
    unfold insertWith
    split_ifs with hlt heq
    · refine sorted_cons.mpr ⟨fun x hx => ?_, h⟩
      rcases List.mem_cons.mp hx with rfl | hx
      · exact hlt
      · exact hlt.trans (hall x hx)
    · exact sorted_cons.mpr ⟨hall, hm⟩
    · refine sorted_cons.mpr ⟨fun x hx => ?_, ih hm⟩
      rcases mem_insertWith hx with hkey | ⟨y, hy, hkey⟩
      · rw [hkey]
        exact lt_of_le_of_ne (not_lt.mp hlt) (Ne.symm heq)
      · rw [← hkey]
        exact hall y hy

theorem sorted_emplace {m : List (κ × ν)} (entry : κ × ν) (h : Sorted m) :
    Sorted (emplace m entry) := sorted_insertWith h

theorem sorted_assign {m : List (κ × ν)} (entry : κ × ν) (h : Sorted m) :
    Sorted (assign m entry) := sorted_insertWith h

theorem sorted_foldl {f : List (κ × ν) → κ × ν → List (κ × ν)}
    (hf : ∀ m entry, Sorted m → Sorted (f m entry)) (l : List (κ × ν)) {m : List (κ × ν)}
    (h : Sorted m) : Sorted (l.foldl f m) := by
  induction l generalizing m with
  | nil => exact h
  | cons entry l ih => exact ih (hf m entry h)

theorem sorted_firsts (l : List (κ × ν)) : Sorted (firsts l) :=
  sorted_foldl (fun _ => sorted_emplace) l sorted_nil

theorem sorted_lasts (l : List (κ × ν)) : Sorted (lasts l) :=
  sorted_foldl (fun _ => sorted_assign) l sorted_nil

/-- A map of a list has only entries of the list. -/
theorem mem_lasts {l : List (κ × ν)} {e : κ × ν} (h : e ∈ lasts l) : e ∈ l := by
  suffices hall : ∀ (l m : List (κ × ν)), e ∈ l.foldl assign m → e ∈ m ∨ e ∈ l from
    (hall l [] h).resolve_left List.not_mem_nil
  intro l
  induction l with
  | nil => exact fun m h => Or.inl h
  | cons entry l ih =>
    intro m h
    rcases ih _ h with hm | hl
    · rcases mem_assign hm with rfl | hm
      · exact Or.inr List.mem_cons_self
      · exact Or.inl hm
    · exact Or.inr (List.mem_cons_of_mem _ hl)

/-! ## Values -/

/-- The map with its values changed. -/
def mapValues {μ : Type} (g : ν → μ) (m : List (κ × ν)) : List (κ × μ) :=
  m.map fun e => (e.1, g e.2)

theorem assign_mapValues {μ : Type} (g : ν → μ) (m : List (κ × ν)) (entry : κ × ν) :
    assign (mapValues g m) (entry.1, g entry.2) = mapValues g (assign m entry) := by
  unfold assign mapValues
  induction m with
  | nil => rfl
  | cons e m ih =>
    rw [List.map_cons, insertWith, insertWith, ih]
    split_ifs <;> rfl

theorem lasts_mapValues {μ : Type} (g : ν → μ) (l : List (κ × ν)) :
    lasts (mapValues g l) = mapValues g (lasts l) := by
  suffices hall : ∀ m : List (κ × ν),
      (mapValues g l).foldl assign (mapValues g m) = mapValues g (l.foldl assign m) from hall []
  induction l with
  | nil => intro m; rfl
  | cons entry l ih =>
    intro m
    have hcons : mapValues g (entry :: l) = (entry.1, g entry.2) :: mapValues g l := rfl
    rw [hcons, List.foldl_cons, List.foldl_cons, assign_mapValues]
    exact ih _

/-! ## Lookups -/

variable [BEq κ] [LawfulBEq κ]

theorem lookup_eq_none {m : List (κ × ν)} {k : κ} (h : ∀ x ∈ m, k < x.1) : m.lookup k = none := by
  rw [List.lookup_eq_none_iff]
  intro x hx
  simpa using (h x hx).ne

theorem lookup_cons (e : κ × ν) (m : List (κ × ν)) (k : κ) :
    (e :: m).lookup k = if k = e.1 then some e.2 else m.lookup k := by
  rw [List.lookup_cons]
  by_cases hk : k = e.1
  · simp [hk]
  · simp [hk, beq_false_of_ne hk]

theorem lookup_insertWith (f : ν → ν) (entry : κ × ν) {m : List (κ × ν)} (h : Sorted m) (k : κ) :
    (insertWith f entry m).lookup k =
      if k = entry.1 then some (((m.lookup entry.1).map f).getD entry.2) else m.lookup k := by
  induction m with
  | nil => rw [insertWith, lookup_cons]; rfl
  | cons e m ih =>
    obtain ⟨hall, hm⟩ := sorted_cons.mp h
    unfold insertWith
    by_cases hlt : entry.1 < e.1
    · have hnone : (e :: m).lookup entry.1 = none := by
        refine lookup_eq_none fun x hx => ?_
        rcases List.mem_cons.mp hx with rfl | hx
        · exact hlt
        · exact hlt.trans (hall x hx)
      rw [if_pos hlt, lookup_cons, hnone]
      rfl
    · rw [if_neg hlt]
      by_cases heq : entry.1 = e.1
      · rw [if_pos heq, lookup_cons, heq, lookup_cons, if_pos rfl, lookup_cons]
        split_ifs <;> rfl
      · rw [if_neg heq, lookup_cons, ih hm, lookup_cons, if_neg heq, lookup_cons]
        by_cases hkey : k = entry.1
        · rw [if_neg (hkey ▸ heq), if_pos hkey, if_pos hkey]
        · rw [if_neg hkey, if_neg hkey]

/-- Maps with the same lookups are equal. -/
theorem ext {m m' : List (κ × ν)} (h : Sorted m) (h' : Sorted m')
    (hlookup : ∀ k, m.lookup k = m'.lookup k) : m = m' := by
  induction m generalizing m' with
  | nil =>
    cases m' with
    | nil => rfl
    | cons e' m' =>
      have hk := hlookup e'.1
      rw [lookup_cons, if_pos rfl] at hk
      cases hk
  | cons e m ih =>
    obtain ⟨hall, hm⟩ := sorted_cons.mp h
    cases m' with
    | nil =>
      have hk := hlookup e.1
      rw [lookup_cons, if_pos rfl] at hk
      cases hk
    | cons e' m' =>
      obtain ⟨hall', hm'⟩ := sorted_cons.mp h'
      have hkey : e.1 = e'.1 := by
        rcases lt_trichotomy e.1 e'.1 with hlt | heq | hlt
        · have hk := hlookup e.1
          rw [lookup_cons, if_pos rfl, lookup_cons, if_neg hlt.ne,
            lookup_eq_none fun x hx => hlt.trans (hall' x hx)] at hk
          cases hk
        · exact heq
        · have hk := hlookup e'.1
          rw [lookup_cons, if_neg hlt.ne, lookup_cons, if_pos rfl,
            lookup_eq_none fun x hx => hlt.trans (hall x hx)] at hk
          cases hk
      have hvalue := hlookup e.1
      rw [lookup_cons, if_pos rfl, lookup_cons, if_pos hkey] at hvalue
      have hrest : m = m' := by
        refine ih hm hm' fun k => ?_
        by_cases hk : k = e.1
        · rw [hk, lookup_eq_none hall, lookup_eq_none fun x hx => hkey ▸ hall' x hx]
        · have hall := hlookup k
          rwa [lookup_cons, lookup_cons, if_neg hk, if_neg (hkey ▸ hk)] at hall
      rw [hrest, Prod.ext hkey (Option.some.inj hvalue)]

theorem lookup_append_singleton (l : List (κ × ν)) (entry : κ × ν) (k : κ) :
    (l ++ [entry]).lookup k = (l.lookup k).or (if k = entry.1 then some entry.2 else none) := by
  rw [List.lookup_append, lookup_cons]
  rfl

/-- The first value of a key stays. -/
theorem lookup_firsts (l : List (κ × ν)) (k : κ) : (firsts l).lookup k = l.lookup k := by
  suffices hall : ∀ (l m : List (κ × ν)), Sorted m →
      (l.foldl emplace m).lookup k = (m.lookup k).or (l.lookup k) by
    simpa [firsts] using hall l [] sorted_nil
  intro l
  induction l with
  | nil => intro m _; simp
  | cons entry l ih =>
    intro m hm
    rw [List.foldl_cons, ih _ (sorted_emplace entry hm), emplace, lookup_insertWith id entry hm,
      lookup_cons]
    by_cases hk : k = entry.1
    · rw [if_pos hk, if_pos hk, hk]
      cases m.lookup entry.1 <;> simp
    · rw [if_neg hk, if_neg hk]

/-- The last value of a key stays. -/
theorem lookup_lasts (l : List (κ × ν)) (k : κ) : (lasts l).lookup k = l.reverse.lookup k := by
  suffices hall : ∀ (l m : List (κ × ν)), Sorted m →
      (l.foldl assign m).lookup k = (l.reverse.lookup k).or (m.lookup k) by
    simpa [lasts] using hall l [] sorted_nil
  intro l
  induction l with
  | nil => intro m _; simp
  | cons entry l ih =>
    intro m hm
    rw [List.foldl_cons, ih _ (sorted_assign entry hm), assign, lookup_insertWith _ entry hm,
      List.reverse_cons, lookup_append_singleton]
    by_cases hk : k = entry.1
    · rw [if_pos hk, if_pos hk]
      cases l.reverse.lookup k <;> cases m.lookup entry.1 <;> rfl
    · rw [if_neg hk, if_neg hk, Option.or_none]

omit [LinearOrder κ] in
/-- All entries of a key have one value. -/
theorem lookup_of_mem_iff {l : List (κ × ν)} {k : κ} {o : Option ν}
    (h : ∀ v, (k, v) ∈ l ↔ o = some v) : l.lookup k = o := by
  cases hlookup : l.lookup k with
  | none =>
    rw [List.lookup_eq_none_iff] at hlookup
    cases o with
    | none => rfl
    | some v => simpa using hlookup (k, v) ((h v).mpr rfl)
  | some v =>
    obtain ⟨before, after, rfl, _⟩ := List.lookup_eq_some_iff.mp hlookup
    exact ((h v).mp (List.mem_append_right before List.mem_cons_self)).symm

omit [LinearOrder κ] in
theorem mem_iff_lookup_of_nodup {l : List (κ × ν)} (hnodup : (l.map Prod.fst).Nodup) {k : κ}
    {v : ν} : (k, v) ∈ l ↔ l.lookup k = some v := by
  constructor
  · intro hv
    apply lookup_of_mem_iff
    intro v'
    constructor
    · intro hv'
      exact congrArg (some ∘ Prod.snd) (List.inj_on_of_nodup_map hnodup hv hv' rfl)
    · intro heq
      cases heq
      exact hv
  · intro hlookup
    obtain ⟨before, after, rfl, _⟩ := List.lookup_eq_some_iff.mp hlookup
    exact List.mem_append_right before List.mem_cons_self

theorem lookup_lasts_of_mem_iff {l : List (κ × ν)} {k : κ} {o : Option ν}
    (h : ∀ v, (k, v) ∈ l ↔ o = some v) : (lasts l).lookup k = o := by
  rw [lookup_lasts]
  apply lookup_of_mem_iff
  intro v
  rw [List.mem_reverse, h]

/-- A map is the map of its entries. -/
theorem firsts_of_sorted {m : List (κ × ν)} (h : Sorted m) : firsts m = m :=
  ext (sorted_firsts m) h (lookup_firsts m)

theorem lookup_reverse_of_sorted {m : List (κ × ν)} (h : Sorted m) (k : κ) :
    m.reverse.lookup k = m.lookup k := by
  induction m with
  | nil => rfl
  | cons e m ih =>
    obtain ⟨hall, hm⟩ := sorted_cons.mp h
    rw [List.reverse_cons, lookup_append_singleton, ih hm, lookup_cons]
    by_cases hk : k = e.1
    · rw [if_pos hk, if_pos hk, lookup_eq_none (hk ▸ hall), Option.none_or]
    · rw [if_neg hk, if_neg hk, Option.or_none]

theorem lasts_of_sorted {m : List (κ × ν)} (h : Sorted m) : lasts m = m :=
  ext (sorted_lasts m) h fun k => (lookup_lasts m k).trans (lookup_reverse_of_sorted h k)

/-- The two maps of a list are equal exactly when the first and the last value of every key are. -/
theorem firsts_eq_lasts_iff (l : List (κ × ν)) :
    firsts l = lasts l ↔ ∀ k, l.lookup k = l.reverse.lookup k := by
  constructor
  · intro h k
    rw [← lookup_firsts, h, lookup_lasts]
  · intro h
    refine ext (sorted_firsts l) (sorted_lasts l) fun k => ?_
    rw [lookup_firsts, lookup_lasts, h k]

theorem firsts_eq_nil_iff (l : List (κ × ν)) : firsts l = [] ↔ l = [] := by
  constructor
  · intro h
    cases l with
    | nil => rfl
    | cons e l =>
      have hk := lookup_firsts (e :: l) e.1
      rw [h, lookup_cons, if_pos rfl] at hk
      cases hk
  · rintro rfl
    rfl

theorem lasts_eq_nil_iff (l : List (κ × ν)) : lasts l = [] ↔ l = [] := by
  constructor
  · intro h
    rcases List.eq_nil_or_concat' l with rfl | ⟨init, e, rfl⟩
    · rfl
    · have hk := lookup_lasts (init ++ [e]) e.1
      rw [h, List.reverse_append, List.reverse_singleton, List.singleton_append, lookup_cons,
        if_pos rfl] at hk
      cases hk
  · rintro rfl
    rfl

/-! ## Entries that may be missing -/

section Present

variable {κ ν : Type}

/-- The entries that have a value. -/
def present (l : List (κ × Option ν)) : List (κ × ν) :=
  l.filterMap fun e => e.2.map fun v => (e.1, v)

theorem present_cons (e : κ × Option ν) (l : List (κ × Option ν)) :
    present (e :: l) = (e.2.map fun v => (e.1, v)).toList ++ present l := by
  unfold present
  rw [List.filterMap_cons]
  cases e.2 <;> rfl

variable [BEq κ] [LawfulBEq κ]

theorem lookup_present_of_notMem {l : List (κ × Option ν)} {k : κ} (h : k ∉ l.map Prod.fst) :
    (present l).lookup k = none := by
  rw [List.lookup_eq_none_iff]
  intro x hx
  obtain ⟨e, he, heq⟩ := List.mem_filterMap.mp hx
  obtain ⟨v, _, rfl⟩ := Option.map_eq_some_iff.mp heq
  have hne : k ≠ e.1 := fun hk => h (List.mem_map.mpr ⟨e, he, hk.symm⟩)
  simpa using hne

/-- Where no key comes twice, a lookup finds what is written down for the key. -/
theorem lookup_present {l : List (κ × Option ν)} {k : κ} {v : Option ν}
    (hnodup : (l.map Prod.fst).Nodup) (hmem : (k, v) ∈ l) : (present l).lookup k = v := by
  induction l with
  | nil => cases hmem
  | cons e l ih =>
    rw [List.map_cons, List.nodup_cons] at hnodup
    rw [present_cons, List.lookup_append]
    rcases List.mem_cons.mp hmem with rfl | hmem
    · rw [lookup_present_of_notMem hnodup.1]
      cases v <;> simp
    · have hne : k ≠ e.1 := fun hk => hnodup.1 (List.mem_map.mpr ⟨(k, v), hmem, hk⟩)
      rw [ih hnodup.2 hmem]
      cases e.2 <;> simp [List.lookup_cons, beq_false_of_ne hne]

theorem lookup_present_reverse {l : List (κ × Option ν)} {k : κ} {v : Option ν}
    (hnodup : (l.map Prod.fst).Nodup) (hmem : (k, v) ∈ l) :
    (present l).reverse.lookup k = v := by
  have hreverse : (present l).reverse = present l.reverse := List.filterMap_reverse.symm
  rw [hreverse]
  refine lookup_present ?_ (List.mem_reverse.mpr hmem)
  rw [List.map_reverse]
  exact List.nodup_reverse.mpr hnodup

end Present

end OrderedMap
