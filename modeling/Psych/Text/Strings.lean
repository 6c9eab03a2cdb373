import Mathlib.Algebra.Group.Nat.Defs
import Mathlib.Algebra.Ring.Int.Defs
import Mathlib.Data.List.Basic
import Mathlib.Data.List.TakeWhile

/-!
# Strings and the integers of the platform

A `std::string` is a list of characters, one for each byte. The functions here are the
standard library's, under its names: `find` and `substr` of `std::string`, `atol` and
`stoi`, `c_str`. The target is 64-bit Windows, so `long` has 32 bits and `size_t` 64.
-/

namespace Psych

abbrev Text := List Char

/-! ## Machine integers -/

/-- Conversion to a 32-bit `long` (or `int`), modulo `2 ^ 32`. -/
def toLong (x : Int) : Int := Int.bmod x (2 ^ 32)

def longMax : Int := 2 ^ 31 - 1

def longMin : Int := -2 ^ 31

/-- Conversion to `size_t`, modulo `2 ^ 64`. -/
def toSize (x : Int) : Nat := (x % 2 ^ 64).toNat

/-- `labs`; the negation of the smallest `long` wraps. -/
def labs (x : Int) : Int := toLong x.natAbs

theorem toSize_of_nonneg {x : Int} (h : 0 ≤ x) (hx : x < 2 ^ 64) : toSize x = x.toNat := by
  unfold toSize
  rw [Int.emod_eq_of_lt h hx]

/-! ## Searching -/

/-- The first occurrence of `pat` in `s`, whose first character has index `i`. -/
def findAt (pat : Text) : Nat → Text → Option Nat
  | i, [] => if pat.isEmpty then some i else none
  | i, c :: s => if pat.isPrefixOf (c :: s) then some i else findAt pat (i + 1) s

/-- `s.find (pat, pos)`; `npos` is `none`. -/
def find (s pat : Text) (pos : Nat) : Option Nat :=
  if pos ≤ s.length then findAt pat pos (s.drop pos) else none

/-- `s.substr (pos, len)`; `none` where it throws `out_of_range`. -/
def substr (s : Text) (pos len : Nat) : Option Text :=
  if pos ≤ s.length then some ((s.drop pos).take len) else none

theorem findAt_spec {pat : Text} {i j : Nat} {s : Text} (h : findAt pat i s = some j) :
    i ≤ j ∧ pat <+: s.drop (j - i) := by
  induction s generalizing i with
  | nil =>
    rw [findAt] at h
    split at h
    · rename_i hp
      cases h
      simp [List.isEmpty_iff.mp hp]
    · cases h
  | cons c s ih =>
    rw [findAt] at h
    split at h
    · rename_i hp
      cases h
      exact ⟨Nat.le_refl _, by simpa using hp⟩
    · obtain ⟨hle, hpre⟩ := ih h
      refine ⟨by omega, ?_⟩
      have hsub : j - i = (j - (i + 1)) + 1 := by omega
      rw [hsub, List.drop_succ_cons]
      exact hpre

/-- What `find` found lies at or after `pos`, and inside the string. -/
theorem find_spec {s pat : Text} {pos j : Nat} (h : find s pat pos = some j) :
    pos ≤ j ∧ pat <+: s.drop j ∧ j + pat.length ≤ max j s.length := by
  unfold find at h
  split at h
  · obtain ⟨hle, hpre⟩ := findAt_spec h
    rw [List.drop_drop] at hpre
    have hj : pos + (j - pos) = j := by omega
    rw [hj] at hpre
    refine ⟨hle, hpre, ?_⟩
    have hlen := hpre.length_le
    rw [List.length_drop] at hlen
    omega
  · cases h

/-- A non-empty pattern that was found ends inside the string. -/
theorem find_end_le {s pat : Text} {pos j : Nat} (h : find s pat pos = some j)
    (hpat : pat ≠ []) : j + pat.length ≤ s.length := by
  have hlen := (find_spec h).2.1.length_le
  have hpos : 0 < pat.length := List.length_pos_iff.mpr hpat
  rw [List.length_drop] at hlen
  omega

/-- A pattern is not found where its first character does not occur. -/
theorem findAt_append {c : Char} {pat s : Text} (hs : c ∉ s) (i : Nat) (rest : Text) :
    findAt (c :: pat) i (s ++ rest) = findAt (c :: pat) (i + s.length) rest := by
  induction s generalizing i with
  | nil => rfl
  | cons d s ih =>
    rw [List.mem_cons, not_or] at hs
    have hno : ¬ (c :: pat).isPrefixOf (d :: (s ++ rest)) = true := by
      simp [List.isPrefixOf, hs.1]
    rw [List.cons_append, findAt, if_neg hno, ih hs.2, List.length_cons]
    congr 1
    omega

theorem findAt_self (c : Char) (pat : Text) (i : Nat) (rest : Text) :
    findAt (c :: pat) i (c :: pat ++ rest) = some i := by
  rw [List.cons_append, findAt, if_pos]
  rw [List.isPrefixOf_iff_prefix, ← List.cons_append]
  exact List.prefix_append _ _

theorem find_of_drop {s rest : Text} {pos : Nat} (h : s.drop pos = rest) (hne : rest ≠ [])
    (pat : Text) : find s pat pos = findAt pat pos rest := by
  have hpos : pos ≤ s.length := by
    by_contra hlong
    exact hne (h.symm.trans (List.drop_eq_nil_of_le (by omega)))
  rw [find, if_pos hpos, h]

/-- A pattern is found behind a text without its first character. -/
theorem find_after {s before pat rest : Text} {c : Char} {pos : Nat}
    (h : s.drop pos = before ++ (c :: pat ++ rest)) (hbefore : c ∉ before) :
    find s (c :: pat) pos = some (pos + before.length) := by
  rw [find_of_drop h (by simp), findAt_append hbefore, findAt_self]

theorem drop_of_append {s before rest : Text} {pos k : Nat} (h : s.drop pos = before ++ rest)
    (hk : before.length = k) : s.drop (pos + k) = rest := by
  rw [← List.drop_drop, h, List.drop_left' hk]

theorem substr_of_le {s : Text} {pos : Nat} (h : pos ≤ s.length) (len : Nat) :
    substr s pos len = some ((s.drop pos).take len) := if_pos h

/-! ## Numbers in texts -/

/-- `isspace` in the C locale; also the ASCII whitespace of `TrimWhitespace`. -/
def isSpace (c : Char) : Bool := c == ' ' || ('\t' ≤ c && c ≤ '\r')

/-- The value of the leading decimal digits, read after `acc`. -/
def readDigits (acc : Nat) : Text → Nat
  | [] => acc
  | c :: s => if c.isDigit then readDigits (10 * acc + (c.toNat - '0'.toNat)) s else acc

/-- The integer at the start of a text after white space and a sign, and whether it has
a digit: what `strtol` and its relatives read before they check the range. -/
def readInteger (s : Text) : Int × Bool :=
  let s := s.dropWhile isSpace
  let (negative, s) :=
    match s with
    | '-' :: s => (true, s)
    | '+' :: s => (false, s)
    | s => (false, s)
  let n : Int := readDigits 0 s
  (if negative then -n else n, s.head?.any Char.isDigit)

/-- `std::atol`: 0 without digits, the nearest `long` out of range. -/
def atol (s : Text) : Int := max longMin (min longMax (readInteger s).1)

theorem atol_le (s : Text) : atol s ≤ longMax := by
  unfold atol longMin longMax
  omega

/-- `std::stoi`: `none` where it throws `invalid_argument` or `out_of_range`. -/
def stoi (s : Text) : Option Int :=
  let (n, digits) := readInteger s
  if digits && longMin ≤ n && n ≤ longMax then some n else none

/-- `std::stoul`, where `unsigned long` has 32 bits: a minus sign negates modulo `2 ^ 32`. -/
def stoul (s : Text) : Option Nat :=
  let (n, digits) := readInteger s
  if digits && n.natAbs < 2 ^ 32 then some (n % 2 ^ 32).toNat else none

/-- The characters up to the terminator: what C functions see of a buffer. -/
def cStr (s : Text) : Text := s.takeWhile (· ≠ '\x00')

theorem cStr_of_not_mem {s : Text} (h : '\x00' ∉ s) : cStr s = s :=
  List.takeWhile_eq_self_iff.mpr fun c hc => by
    simpa using fun heq : c = '\x00' => h (heq ▸ hc)

theorem not_mem_cStr (s : Text) : '\x00' ∉ cStr s := by
  intro hmem
  simpa using List.mem_takeWhile_imp hmem

example : (atol "48000".toList, atol " -7x".toList, atol "".toList) = (48000, -7, 0) := by decide

example : (stoi "-5".toList, stoul "-5".toList) = (some (-5), some 4294967291) := by decide

end Psych
