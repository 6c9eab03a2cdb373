import Psych.Library.Loops
import Psych.Text.Strings

/-!
# Registry paths

`fix_rfa_string_path` writes the hive of a registry path in full and turns its slashes. It has the
same place and length for the letters of every abbreviation, though `HKU` has one letter less than
the others, so the character after `HKU` is lost (`path_kept_iff`).
-/

namespace Psych

/-! ## The code -/

/-- `replace (pos, len, t)`. -/
def replace (s : Text) (pos len : Nat) (t : Text) : Text := s.take pos ++ t ++ s.drop (pos + len)

/-- The abbreviation at the start of the standard library's copy of the string. -/
def replaceHive (str : Text) : Text :=
  if (str.drop 2).take 2 = "LM".toList then replace str 2 2 "EY_LOCAL_MACHINE".toList
  else if "HKCC".toList.isPrefixOf str then replace str 2 2 "EY_CURRENT_CONFIG".toList
  else if "HKCR".toList.isPrefixOf str then replace str 2 2 "EY_CLASSES_ROOT".toList
  else if "HKCU".toList.isPrefixOf str then replace str 2 2 "EY_CURRENT_USER".toList
  else if "HKU".toList.isPrefixOf str then replace str 2 2 "EY_USERS".toList
  else str

/-- The part of `fix_rfa_string_path` before the loop; the string is set where it starts with
`HK`. -/
def expandHive (rfaStr : Text) : Text :=
  if (cStr rfaStr).take 2 = "HK".toList then cStr (replaceHive (cStr rfaStr)) else rfaStr

/-- A pass of the loop, from the string and `pos`. -/
def slashPass (_ : Nat) (s : Text × Nat) : (Text × Nat) ⊕ Text :=
  match find s.1 "/".toList s.2 with
  | none => .inr s.1
  | some pos => .inl (replace s.1 pos 1 "\\".toList, pos + 1)

/-- `fix_rfa_string_path` returns, with `s` in the place of `rfaStr`. -/
def FixesRfaStringPath (rfaStr s : Text) : Prop :=
  ∃ starts, Loops.Passes slashPass 0 (expandHive rfaStr, 0) starts s

/-! ## The path -/

/-- The abbreviations, and the names of the hives. -/
def hives : List (Text × Text) :=
  [("HKLM", "HKEY_LOCAL_MACHINE"), ("HKCC", "HKEY_CURRENT_CONFIG"),
    ("HKCR", "HKEY_CLASSES_ROOT"), ("HKCU", "HKEY_CURRENT_USER"), ("HKU", "HKEY_USERS")].map
    fun hive => (hive.1.toList, hive.2.toList)

/-- The path with its hive in full. -/
def fullHive (s : Text) : Text :=
  match hives.find? fun hive => hive.1.isPrefixOf s with
  | some hive => hive.2 ++ s.drop hive.1.length
  | none => s

def backslash (c : Char) : Char := if c = '/' then '\\' else c

/-- The function ends with the hive written in full, the slashes turned and the rest kept, and
changes nothing when it is applied again. -/
def PathKept (s : Text) : Prop :=
  ∃ r, FixesRfaStringPath s r ∧ r = (fullHive s).map backslash ∧ FixesRfaStringPath r r

/-! ## Slashes -/

theorem find_slash_cases (t : Text) {pos : Nat} (hpos : pos ≤ t.length) :
    ('/' ∉ t.drop pos ∧ find t "/".toList pos = none) ∨
    ∃ before rest, t.drop pos = before ++ '/' :: rest ∧ '/' ∉ before ∧
      find t "/".toList pos = some (pos + before.length) := by
  by_cases hmem : '/' ∈ t.drop pos
  · obtain ⟨before, rest, hdrop, hbefore⟩ := List.eq_append_cons_of_mem hmem
    exact Or.inr ⟨before, rest, hdrop, hbefore, find_after hdrop hbefore⟩
  · refine Or.inl ⟨hmem, ?_⟩
    have hnone := @findAt_append '/' [] _ hmem pos []
    rw [List.append_nil] at hnone
    exact (if_pos hpos).trans hnone

/-- What a pass goes on with: the next slash is turned, and the cursor stands behind it. -/
theorem slashPass_inl {n : Nat} {s t : Text × Nat} (h : slashPass n s = .inl t) :
    t.1.map backslash = s.1.map backslash ∧ t.1.length = s.1.length ∧ s.2 < t.2 ∧
      t.2 ≤ t.1.length ∧ ('/' ∉ s.1.take s.2 → '/' ∉ t.1.take t.2) := by
  by_cases hpos : s.2 ≤ s.1.length
  · rcases find_slash_cases s.1 hpos with ⟨_, hnone⟩ | ⟨before, rest, hdrop, hbefore, hfind⟩
    · rw [slashPass, hnone] at h
      cases h
    · rw [slashPass, hfind] at h
      obtain rfl := Sum.inl.inj h
      obtain ⟨pre, hpre, hlen⟩ : ∃ pre, s.1 = pre ++ (before ++ '/' :: rest) ∧ pre.length = s.2 :=
        ⟨s.1.take s.2, by rw [← hdrop, List.take_append_drop], List.length_take_of_le hpos⟩
      rw [← hlen, hpre]
      have hreplace : replace (pre ++ (before ++ '/' :: rest)) (pre.length + before.length) 1
          "\\".toList = pre ++ before ++ '\\' :: rest := by
        unfold replace
        rw [← List.append_assoc, List.take_left' (List.length_append ..), ← List.drop_drop,
          List.drop_left' (List.length_append ..), List.append_assoc]
        rfl
      have htake : (pre ++ before ++ '\\' :: rest).take (pre.length + before.length + 1) =
          pre ++ before ++ ['\\'] := by
        rw [List.append_cons]
        exact List.take_left' (by simp [Nat.add_assoc])
      dsimp only
      rw [hreplace, htake]
      refine ⟨by simp [backslash], by simp, by omega, ?_, fun hno => ?_⟩
      · simp only [List.length_append, List.length_cons]
        omega
      · rw [List.take_left' rfl] at hno
        simp [hno, hbefore]
  · rw [slashPass, find, if_neg hpos] at h
    cases h

theorem map_backslash_of_not_mem {s : Text} (h : '/' ∉ s) : s.map backslash = s := by
  have hsame : s.map backslash = s.map id :=
    List.map_congr_left fun c hc => if_neg fun heq : c = '/' => h (heq ▸ hc)
  rw [hsame, List.map_id]

theorem not_mem_map_backslash (s : Text) : '/' ∉ s.map backslash := by
  intro hmem
  obtain ⟨c, _, hc⟩ := List.mem_map.mp hmem
  unfold backslash at hc
  split at hc
  · cases hc
  · contradiction

theorem slashPass_inr {n : Nat} {s : Text × Nat} {r : Text} (h : slashPass n s = .inr r)
    (hpos : s.2 ≤ s.1.length) (htake : '/' ∉ s.1.take s.2) : r = s.1.map backslash := by
  rcases find_slash_cases s.1 hpos with ⟨hdrop, hnone⟩ | ⟨before, rest, _, _, hfind⟩
  · rw [slashPass, hnone] at h
    obtain rfl := Sum.inr.inj h
    refine (map_backslash_of_not_mem fun hmem => ?_).symm
    rw [← List.take_append_drop s.2 s.1] at hmem
    exact (List.mem_append.mp hmem).elim htake hdrop
  · rw [slashPass, hfind] at h
    cases h

/-- The loop ends, with every slash turned. -/
theorem fixesRfaStringPath_iff {rfaStr s : Text} :
    FixesRfaStringPath rfaStr s ↔ s = (expandHive rfaStr).map backslash := by
  have hresult : ∀ {starts r}, Loops.Passes slashPass 0 (expandHive rfaStr, 0) starts r →
      r = (expandHive rfaStr).map backslash := by
    intro starts r hrun
    refine (hrun.invariant (fun _ t => t.1.map backslash = (expandHive rfaStr).map backslash ∧
        t.2 ≤ t.1.length ∧ '/' ∉ t.1.take t.2)
      (fun _ r => r = (expandHive rfaStr).map backslash) (fun {n t u} ht hbody => ?_)
      (fun {n t r} ht hbody => ?_) ⟨rfl, Nat.zero_le _, by simp⟩).2
    · obtain ⟨hmap, _, _, hpos, htake⟩ := slashPass_inl hbody
      exact ⟨hmap.trans ht.1, hpos, htake ht.2.2⟩
    · exact (slashPass_inr hbody ht.2.1 ht.2.2).trans ht.1
  constructor
  · rintro ⟨starts, hrun⟩
    exact hresult hrun
  · rintro rfl
    obtain ⟨starts, r, hrun, _⟩ := @Loops.exists_passes _ _ slashPass
      (fun s => s.1.length - s.2) (fun {n s t} hbody => by
        obtain ⟨_, hlength, hlt, hle, _⟩ := slashPass_inl hbody
        omega) 0 (expandHive rfaStr, 0)
    obtain rfl := hresult hrun
    exact ⟨starts, hrun⟩

/-! ## Hives -/

theorem fullHive_append : ∀ hive ∈ hives, ∀ rest, fullHive (hive.1 ++ rest) = hive.2 ++ rest := by
  simp only [hives, List.map_cons, List.map_nil, List.forall_mem_cons, List.not_mem_nil,
    false_implies, implies_true, and_true]
  exact ⟨fun _ => rfl, fun _ => rfl, fun _ => rfl, fun _ => rfl, fun _ => rfl⟩

/-- The abbreviations of four letters. -/
theorem replaceHive_append : ∀ hive ∈ hives, hive.1 ≠ "HKU".toList →
    ∀ rest, replaceHive (hive.1 ++ rest) = hive.2 ++ rest := by
  simp only [hives, List.map_cons, List.map_nil, List.forall_mem_cons, List.not_mem_nil,
    false_implies, implies_true, and_true]
  exact ⟨fun _ _ => rfl, fun _ _ => rfl, fun _ _ => rfl, fun _ _ => rfl,
    fun h => absurd rfl h⟩

theorem replaceHive_abbreviation : ∀ hive ∈ hives, replaceHive hive.1 = hive.2 := by decide

/-- One character after `HKU` is replaced with it. -/
theorem replaceHive_users (rest : Text) :
    replaceHive ("HKU".toList ++ rest) = "HKEY_USERS".toList ++ rest.drop 1 := rfl

theorem fullHive_of_no_hive {s : Text} (h : ∀ hive ∈ hives, ¬ hive.1 <+: s) :
    fullHive s = s := by
  have hnone : (hives.find? fun hive => hive.1.isPrefixOf s) = none := by
    rw [List.find?_eq_none]
    intro hive hmem hpre
    exact h hive hmem (List.isPrefixOf_iff_prefix.mp hpre)
  rw [fullHive, hnone]

theorem replaceHive_of_no_hive {s : Text} (hstart : s.take 2 = "HK".toList)
    (h : ∀ hive ∈ hives, ¬ hive.1 <+: s) : replaceHive s = s := by
  have hlm : (s.drop 2).take 2 ≠ "LM".toList := by
    intro heq
    refine h ("HKLM".toList, "HKEY_LOCAL_MACHINE".toList) (by decide) ⟨(s.drop 2).drop 2, ?_⟩
    have hparts : s.take 2 ++ ((s.drop 2).take 2 ++ (s.drop 2).drop 2) = s := by
      rw [List.take_append_drop, List.take_append_drop]
    rw [hstart, heq] at hparts
    exact hparts
  have hno : ∀ abbreviation name, (abbreviation, name) ∈ hives →
      ¬ abbreviation.isPrefixOf s = true := fun _ _ hmem hpre =>
    h _ hmem (List.isPrefixOf_iff_prefix.mp hpre)
  unfold replaceHive
  rw [if_neg hlm, if_neg (hno _ "HKEY_CURRENT_CONFIG".toList (by decide)),
    if_neg (hno _ "HKEY_CLASSES_ROOT".toList (by decide)),
    if_neg (hno _ "HKEY_CURRENT_USER".toList (by decide)),
    if_neg (hno _ "HKEY_USERS".toList (by decide))]

/-- A path starts with an abbreviation, or with none. -/
theorem hive_cases (s : Text) :
    (∃ hive ∈ hives, ∃ rest, s = hive.1 ++ rest) ∨ ∀ hive ∈ hives, ¬ hive.1 <+: s := by
  by_cases h : ∃ hive ∈ hives, hive.1 <+: s
  · obtain ⟨hive, hmem, rest, heq⟩ := h
    exact Or.inl ⟨hive, hmem, rest, heq.symm⟩
  · exact Or.inr fun hive hmem hpre => h ⟨hive, hmem, hpre⟩

/-! ## Terminators -/

theorem take_cStr {s : Text} : (cStr s).take 2 = "HK".toList ↔ "HK".toList <+: s := by
  constructor
  · intro h
    exact (h ▸ List.take_prefix 2 (cStr s)).trans (List.takeWhile_prefix _)
  · rintro ⟨rest, rfl⟩
    rfl

theorem expandHive_of_no_start {s : Text} (h : ¬ "HK".toList <+: s) : expandHive s = s :=
  if_neg fun htake => h (take_cStr.mp htake)

theorem expandHive_of_start {s : Text} (h : "HK".toList <+: s) :
    expandHive s = cStr (replaceHive (cStr s)) := if_pos (take_cStr.mpr h)

/-- Every abbreviation starts with `HK`; neither it nor the name has a terminator or a slash, and
no name starts with an abbreviation. -/
theorem hive_letters : ∀ hive ∈ hives, "HK".toList <+: hive.1 ∧ '\\' ∉ hive.1 ∧
    '\x00' ∉ hive.1 ∧ '\x00' ∉ hive.2 ∧ hive.2.map backslash = hive.2 ∧
    ∀ other ∈ hives, other.1.length ≤ hive.2.length ∧ ¬ other.1 <+: hive.2 := by
  decide

theorem terminator_mem_fullHive (s : Text) : '\x00' ∈ fullHive s ↔ '\x00' ∈ s := by
  rcases hive_cases s with ⟨hive, hmem, rest, rfl⟩ | hnone
  · obtain ⟨_, _, habbreviation, hname, _⟩ := hive_letters hive hmem
    rw [fullHive_append hive hmem, List.mem_append, List.mem_append, or_iff_right hname,
      or_iff_right habbreviation]
  · rw [fullHive_of_no_hive hnone]

theorem terminator_mem_map (s : Text) : '\x00' ∈ s.map backslash ↔ '\x00' ∈ s := by
  have hchar : ∀ c, backslash c = '\x00' ↔ c = '\x00' := by
    intro c
    unfold backslash
    split
    · rename_i hc
      rw [hc]
      decide
    · rfl
  simp [hchar]

/-- Turning slashes makes no new start without a backslash. -/
theorem prefix_of_prefix_map {pat s : Text} (hpat : '\\' ∉ pat) (h : pat <+: s.map backslash) :
    pat <+: s := by
  have htake : (s.take pat.length).map backslash = pat := by
    rw [List.map_take]
    exact (List.prefix_iff_eq_take.mp h).symm
  have hno : '/' ∉ s.take pat.length := by
    intro hmem
    have hback := List.mem_map_of_mem (f := backslash) hmem
    rw [htake] at hback
    exact hpat hback
  rw [map_backslash_of_not_mem hno] at htake
  exact htake ▸ List.take_prefix _ s

/-! ## What is kept -/

/-- Nothing of the path is lost before the loop. -/
theorem expandHive_eq {s : Text} (husers : ¬ ("HKU".toList <+: s ∧ 3 < s.length))
    (hterminator : ¬ ("HK".toList <+: s ∧ '\x00' ∈ s)) : expandHive s = fullHive s := by
  by_cases hstart : "HK".toList <+: s
  · have hno : '\x00' ∉ s := fun hmem => hterminator ⟨hstart, hmem⟩
    have hfull : cStr (fullHive s) = fullHive s :=
      cStr_of_not_mem ((terminator_mem_fullHive s).not.mpr hno)
    rw [expandHive_of_start hstart, cStr_of_not_mem hno, ← hfull]
    congr 1
    rcases hive_cases s with ⟨hive, hmem, rest, rfl⟩ | hnone
    · rw [fullHive_append hive hmem]
      by_cases hshort : hive.1 = "HKU".toList
      · have hrest : rest = [] := by
          by_contra hne
          have hpos := List.length_pos_iff.mpr hne
          refine husers ⟨hshort ▸ List.prefix_append _ _, ?_⟩
          rw [List.length_append, hshort]
          change 3 < 3 + rest.length
          omega
        rw [hrest, List.append_nil, List.append_nil, replaceHive_abbreviation hive hmem]
      · exact replaceHive_append hive hmem hshort rest
    · rw [replaceHive_of_no_hive (List.prefix_iff_eq_take.mp hstart).symm hnone,
        fullHive_of_no_hive hnone]
  · rw [expandHive_of_no_start hstart, fullHive_of_no_hive fun hive hmem hpre =>
      hstart ((hive_letters hive hmem).1.trans hpre)]

/-- A path whose hive is written in full stays as it is. -/
theorem expandHive_fixed {s : Text} (hhive : ∀ hive ∈ hives, ¬ hive.1 <+: s)
    (hterminator : ¬ ("HK".toList <+: s ∧ '\x00' ∈ s)) : expandHive s = s := by
  have husers : ¬ ("HKU".toList <+: s ∧ 3 < s.length) := fun h =>
    hhive ("HKU".toList, "HKEY_USERS".toList) (by decide) h.1
  rw [expandHive_eq husers hterminator, fullHive_of_no_hive hhive]

/-- The result starts with no abbreviation, and with `HK` only where the path does. -/
theorem fullHive_start (s : Text) :
    (∀ hive ∈ hives, ¬ hive.1 <+: (fullHive s).map backslash) ∧
      ("HK".toList <+: (fullHive s).map backslash → "HK".toList <+: s) := by
  rcases hive_cases s with ⟨hive, hmem, rest, rfl⟩ | hnone
  · obtain ⟨hstart, _, _, _, hname, hother⟩ := hive_letters hive hmem
    rw [fullHive_append hive hmem, List.map_append, hname]
    refine ⟨fun other hmem' hpre => ?_, fun _ => hstart.trans (List.prefix_append _ _)⟩
    obtain ⟨hlength, hno⟩ := hother other hmem'
    exact hno (List.prefix_of_prefix_length_le hpre (List.prefix_append _ _) hlength)
  · rw [fullHive_of_no_hive hnone]
    refine ⟨fun hive hmem hpre => ?_, prefix_of_prefix_map (by decide)⟩
    exact hnone hive hmem (prefix_of_prefix_map (hive_letters hive hmem).2.1 hpre)

/-- The path is kept exactly where it does not start with `HKU` and a further character, and has
no terminator where it starts with `HK`. -/
theorem path_kept_iff (s : Text) :
    PathKept s ↔ ¬ ("HKU".toList <+: s ∧ 3 < s.length) ∧ ¬ ("HK".toList <+: s ∧ '\x00' ∈ s) := by
  unfold PathKept
  simp only [fixesRfaStringPath_iff]
  constructor
  · rintro ⟨r, hr, hfull, _⟩
    rw [hr] at hfull
    have hterminator : ¬ ("HK".toList <+: s ∧ '\x00' ∈ s) := by
      rintro ⟨hstart, hmem⟩
      have hmem' : '\x00' ∈ (expandHive s).map backslash := by
        rw [hfull, terminator_mem_map, terminator_mem_fullHive]
        exact hmem
      rw [terminator_mem_map, expandHive_of_start hstart] at hmem'
      exact not_mem_cStr _ hmem'
    refine ⟨?_, hterminator⟩
    rintro ⟨⟨rest, rfl⟩, hlong⟩
    have hstart : "HK".toList <+: "HKU".toList ++ rest := ⟨'U' :: rest, rfl⟩
    have hno : '\x00' ∉ "HKU".toList ++ rest := fun hmem => hterminator ⟨hstart, hmem⟩
    have hno' : '\x00' ∉ replaceHive ("HKU".toList ++ rest) := by
      rw [replaceHive_users, List.mem_append, not_or]
      exact ⟨by decide, fun hmem => hno (List.mem_append_right _ (List.mem_of_mem_drop hmem))⟩
    rw [expandHive_of_start hstart, cStr_of_not_mem hno, cStr_of_not_mem hno', replaceHive_users,
      fullHive_append ("HKU".toList, "HKEY_USERS".toList) (by decide)] at hfull
    have hlength := congrArg List.length hfull
    simp only [List.length_map, List.length_append, List.length_drop] at hlength
    rw [List.length_append] at hlong
    change 3 < 3 + rest.length at hlong
    omega
  · rintro ⟨husers, hterminator⟩
    obtain ⟨hhive, hstart⟩ := fullHive_start s
    have hkept : expandHive ((fullHive s).map backslash) = (fullHive s).map backslash := by
      refine expandHive_fixed hhive fun ⟨hpre, hmem⟩ => hterminator ⟨hstart hpre, ?_⟩
      rwa [terminator_mem_map, terminator_mem_fullHive] at hmem
    refine ⟨_, congrArg (List.map backslash) (expandHive_eq husers hterminator).symm, rfl, ?_⟩
    rw [hkept, map_backslash_of_not_mem (not_mem_map_backslash _)]

/-- The separator after `HKU` is lost. -/
theorem users_separator_lost : ¬ PathKept "HKU\\Software/Psych".toList := by
  rintro ⟨r, hfixes, hfull, _⟩
  rw [fixesRfaStringPath_iff, hfull] at hfixes
  exact absurd hfixes (by decide)

end Psych
