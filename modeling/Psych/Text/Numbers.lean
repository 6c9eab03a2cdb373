import Psych.Text.Strings

/-!
# Integers in texts

`StringToInt`, `HexStringToInt` and `IntToString`. The conversion from a text checks, before every
digit after the first, that the number stays within its bounds; the one to a text fills a buffer
from its end.
-/

namespace Psych

/-! ## From a text -/

/-- `CharToDigit`. -/
def charToDigit (base : Nat) (c : Char) : Option Nat :=
  if c.isDigit then
    let digit := c.toNat - '0'.toNat
    if digit < base then some digit else none
  else if base ≤ 10 then none
  else if 'a'.toNat ≤ c.toNat ∧ c.toNat < 'a'.toNat + base - 10 then some (c.toNat - 'a'.toNat + 10)
  else if 'A'.toNat ≤ c.toNat ∧ c.toNat < 'A'.toNat + base - 10 then some (c.toNat - 'A'.toNat + 10)
  else none

/-- `BaseIteratorRangeToNumberTraits`. -/
structure NumberTraits where
  base : Nat
  min : Int
  max : Int

/-- `Positive` and `Negative`. -/
structure NumberSign where
  checkBounds : Int → Nat → Bool
  increment : Nat → Int → Int

def NumberTraits.positive (traits : NumberTraits) : NumberSign where
  checkBounds output newDigit :=
    !(traits.max.tdiv traits.base < output ||
      (output == traits.max.tdiv traits.base && traits.max.tmod traits.base < newDigit))
  increment newDigit output := output + newDigit

def NumberTraits.negative (traits : NumberTraits) : NumberSign where
  checkBounds output newDigit :=
    !(output < traits.min.tdiv traits.base ||
      (output == traits.min.tdiv traits.base && 0 - traits.min.tmod traits.base < newDigit))
  increment newDigit output := output - newDigit

/-- The loop of `Invoke`, from the second digit on. -/
def convertRest (base : Nat) (sign : NumberSign) (output : Int) : Text → Option Int
  | [] => some output
  | c :: s =>
    match charToDigit base c with
    | none => none
    | some newDigit =>
      if sign.checkBounds output newDigit then
        convertRest base sign (sign.increment newDigit (output * base)) s
      else none

/-- `Base::Invoke`. -/
def convertDigits (base : Nat) (sign : NumberSign) (s : Text) : Option Int :=
  let hasPrefix := decide (base = 16) && decide (2 < s.length) && s.head? == some '0' &&
    (s.tail.head? == some 'x' || s.tail.head? == some 'X')
  match if hasPrefix then s.drop 2 else s with
  | [] => none
  | c :: s =>
    match charToDigit base c with
    | none => none
    | some newDigit => convertRest base sign (sign.increment newDigit 0) s

/-- `IteratorRangeToNumber::Invoke`: white space before the number makes it invalid. -/
def rangeToNumber (traits : NumberTraits) : Text → Option Int
  | [] => none
  | c :: s =>
    if isSpace c then none
    else if c = '-' then convertDigits traits.base traits.negative s
    else if c = '+' then convertDigits traits.base traits.positive s
    else convertDigits traits.base traits.positive (c :: s)

def intMax : Int := 2147483647

def intMin : Int := -2147483648

def stringToInt (s : Text) : Option Int := rangeToNumber ⟨10, intMin, intMax⟩ s

/-- The largest number is the one of an `unsigned int`. -/
def hexStringToInt (s : Text) : Option Int := rangeToNumber ⟨16, intMin, 4294967295⟩ s

/-! ## To a text -/

/-- The digits of `res` written before `written`, in a buffer with room for `room` more
characters. -/
def writeDigits : Nat → Nat → Text → Option Text
  | 0, _, _ => none
  | room + 1, res, written =>
    let written := Char.ofNat (res % 10 + '0'.toNat) :: written
    if res / 10 = 0 then some written else writeDigits room (res / 10) written

/-- `kOutputBufSize` of an `int`. -/
def outputBufSize : Nat := 3 * 4 + 1

/-- `IntToString`; nothing where the buffer is too small. -/
def intToString (value : Int) : Option Text := do
  let digits ← writeDigits outputBufSize value.natAbs []
  if value < 0 then
    if digits.length < outputBufSize then some ('-' :: digits) else none
  else some digits

/-! ## Decimal numbers -/

/-- The value of decimal digits after those of `acc`. -/
def decimalValue (acc : Nat) (digits : Text) : Nat :=
  digits.foldl (fun n c => n * 10 + (c.toNat - 48)) acc

theorem digit_bounds {c : Char} (h : c.isDigit = true) : 48 ≤ c.toNat ∧ c.toNat ≤ 57 :=
  Char.isDigit_iff_toNat.mp h

theorem not_isSpace_of_isDigit {c : Char} (h : c.isDigit = true) : isSpace c = false := by
  have hc := digit_bounds h
  rw [← Bool.not_eq_true]
  intro hspace
  simp only [isSpace, Bool.or_eq_true, beq_iff_eq, Bool.and_eq_true, decide_eq_true_eq] at hspace
  rcases hspace with rfl | ⟨-, hle⟩
  · simp at h
  · have hnat : c.toNat ≤ 13 := hle
    omega

theorem charToDigit_decimal (c : Char) :
    charToDigit 10 c = if c.isDigit then some (c.toNat - 48) else none := by
  unfold charToDigit
  split
  · rename_i hc
    have := digit_bounds hc
    simp only [Char.reduceToNat]
    rw [if_pos (by omega)]
  · rfl

theorem decimalValue_cons (acc : Nat) (c : Char) (digits : Text) :
    decimalValue acc (c :: digits) = decimalValue (acc * 10 + (c.toNat - 48)) digits := by
  simp only [decimalValue, List.foldl_cons]

theorem le_decimalValue (acc : Nat) (digits : Text) : acc ≤ decimalValue acc digits := by
  induction digits generalizing acc with
  | nil => exact Nat.le_refl acc
  | cons c digits ih =>
    have h := ih (acc * 10 + (c.toNat - 48))
    rw [decimalValue_cons]
    omega

/-- The outputs of a sign are `ofNat` of the numbers up to `limit`: the check before a digit is
whether the number with that digit is one of them. -/
structure NumberSign.Bounded (sign : NumberSign) (ofNat : Nat → Int) (limit : Nat) : Prop where
  check : ∀ n newDigit, newDigit < 10 →
    (sign.checkBounds (ofNat n) newDigit = true ↔ n * 10 + newDigit ≤ limit)
  increment : ∀ n newDigit, sign.increment newDigit (ofNat n * 10) = ofNat (n * 10 + newDigit)

theorem positive_bounded :
    (NumberTraits.positive ⟨10, intMin, intMax⟩).Bounded (fun n => (n : Int)) 2147483647 where
  check n newDigit hlt := by
    have hcheck : (NumberTraits.positive ⟨10, intMin, intMax⟩).checkBounds n newDigit =
        !(decide (214748364 < (n : Int)) ||
          ((n : Int) == 214748364 && decide (7 < (newDigit : Int)))) := rfl
    rw [hcheck]
    simp only [Bool.not_eq_true', Bool.or_eq_false_iff, decide_eq_false_iff_not,
      Bool.and_eq_false_iff, beq_eq_false_iff_ne]
    omega
  increment n newDigit := by
    simp only [NumberTraits.positive]
    push_cast
    omega

theorem negative_bounded :
    (NumberTraits.negative ⟨10, intMin, intMax⟩).Bounded (fun n => -(n : Int)) 2147483648 where
  check n newDigit hlt := by
    have hcheck : (NumberTraits.negative ⟨10, intMin, intMax⟩).checkBounds (-n) newDigit =
        !(decide (-(n : Int) < -214748364) ||
          (-(n : Int) == -214748364 && decide (8 < (newDigit : Int)))) := rfl
    rw [hcheck]
    simp only [Bool.not_eq_true', Bool.or_eq_false_iff, decide_eq_false_iff_not,
      Bool.and_eq_false_iff, beq_eq_false_iff_ne]
    omega
  increment n newDigit := by
    simp only [NumberTraits.negative]
    push_cast
    omega

theorem convertRest_eq {sign : NumberSign} {ofNat : Nat → Int} {limit : Nat}
    (h : sign.Bounded ofNat limit) (s : Text) (n : Nat) (hn : n ≤ limit) :
    convertRest 10 sign (ofNat n) s =
      if s.all Char.isDigit = true ∧ decimalValue n s ≤ limit then
        some (ofNat (decimalValue n s)) else none := by
  induction s generalizing n with
  | nil => simp [convertRest, decimalValue, hn]
  | cons c s ih =>
    rw [convertRest, charToDigit_decimal, decimalValue_cons]
    cases hc : c.isDigit with
    | false => simp [hc]
    | true =>
      have := digit_bounds hc
      have hlt : c.toNat - 48 < 10 := by omega
      have hcheck := h.check n _ hlt
      simp only [if_true, List.all_cons, hc, Bool.true_and]
      by_cases hle : n * 10 + (c.toNat - 48) ≤ limit
      · rw [if_pos (hcheck.mpr hle), Nat.cast_ofNat, h.increment]
        exact ih _ hle
      · have hmono := le_decimalValue (n * 10 + (c.toNat - 48)) s
        rw [if_neg fun h => hle (hcheck.mp h), if_neg (by omega)]

theorem convertDigits_eq {sign : NumberSign} {ofNat : Nat → Int} {limit : Nat}
    (h : sign.Bounded ofNat limit) (hzero : ofNat 0 = 0) (hlimit : 9 ≤ limit) (s : Text) :
    convertDigits 10 sign s =
      if s ≠ [] ∧ s.all Char.isDigit = true ∧ decimalValue 0 s ≤ limit then
        some (ofNat (decimalValue 0 s)) else none := by
  unfold convertDigits
  simp only [Nat.reduceEqDiff, decide_false, Bool.false_and, Bool.false_eq_true, if_false]
  cases s with
  | nil => simp
  | cons c s =>
    simp only [charToDigit_decimal, decimalValue_cons]
    cases hc : c.isDigit with
    | false => simp [hc]
    | true =>
      have := digit_bounds hc
      have hfirst : sign.increment (c.toNat - 48) 0 = ofNat (0 * 10 + (c.toNat - 48)) := by
        rw [← h.increment, hzero]
        rfl
      simp only [if_true, hfirst]
      rw [convertRest_eq h s _ (by omega)]
      simp [hc]

/-- What `StringToInt` makes of decimal digits with a sign or without one. -/
inductive SpellsInt : Text → Int → Prop
  | positive {digits : Text} (hne : digits ≠ []) (hdigits : ∀ c ∈ digits, c.isDigit = true)
      (hmax : (decimalValue 0 digits : Int) ≤ intMax) :
      SpellsInt digits (decimalValue 0 digits)
  | plus {digits : Text} (hne : digits ≠ []) (hdigits : ∀ c ∈ digits, c.isDigit = true)
      (hmax : (decimalValue 0 digits : Int) ≤ intMax) :
      SpellsInt ('+' :: digits) (decimalValue 0 digits)
  | minus {digits : Text} (hne : digits ≠ []) (hdigits : ∀ c ∈ digits, c.isDigit = true)
      (hmin : intMin ≤ -(decimalValue 0 digits : Int)) :
      SpellsInt ('-' :: digits) (-decimalValue 0 digits)

theorem SpellsInt.bounds {s : Text} {n : Int} (h : SpellsInt s n) : intMin ≤ n ∧ n ≤ intMax := by
  cases h with
  | positive hne hdigits hmax => exact ⟨by simp only [intMin]; omega, hmax⟩
  | plus hne hdigits hmax => exact ⟨by simp only [intMin]; omega, hmax⟩
  | minus hne hdigits hmin => exact ⟨hmin, by simp only [intMax]; omega⟩

/-- The digits after a sign, or without one. -/
theorem convertDigits_positive (s : Text) (n : Int) :
    convertDigits 10 (NumberTraits.positive ⟨10, intMin, intMax⟩) s = some n ↔
      s ≠ [] ∧ (∀ c ∈ s, c.isDigit = true) ∧ (decimalValue 0 s : Int) ≤ intMax ∧
        n = decimalValue 0 s := by
  rw [convertDigits_eq positive_bounded rfl (by omega)]
  simp only [intMax]
  split
  · rename_i h
    simp only [Option.some.injEq]
    exact ⟨fun hn => ⟨h.1, List.all_eq_true.mp h.2.1, by omega, hn.symm⟩, fun hn => hn.2.2.2.symm⟩
  · rename_i h
    exact ⟨fun hn => (nomatch hn), fun hn => absurd ⟨hn.1, List.all_eq_true.mpr hn.2.1, by omega⟩ h⟩

theorem convertDigits_negative (s : Text) (n : Int) :
    convertDigits 10 (NumberTraits.negative ⟨10, intMin, intMax⟩) s = some n ↔
      s ≠ [] ∧ (∀ c ∈ s, c.isDigit = true) ∧ intMin ≤ -(decimalValue 0 s : Int) ∧
        n = -decimalValue 0 s := by
  rw [convertDigits_eq negative_bounded rfl (by omega)]
  simp only [intMin]
  split
  · rename_i h
    simp only [Option.some.injEq]
    exact ⟨fun hn => ⟨h.1, List.all_eq_true.mp h.2.1, by omega, hn.symm⟩, fun hn => hn.2.2.2.symm⟩
  · rename_i h
    exact ⟨fun hn => (nomatch hn), fun hn => absurd ⟨hn.1, List.all_eq_true.mpr hn.2.1, by omega⟩ h⟩

/-- A text is converted exactly if it spells an integer that an `int` holds. -/
theorem stringToInt_iff (s : Text) (n : Int) : stringToInt s = some n ↔ SpellsInt s n := by
  unfold stringToInt
  constructor
  · intro h
    cases s with
    | nil => cases h
    | cons c s =>
      rw [rangeToNumber] at h
      split_ifs at h with hspace hminus hplus
      · subst hminus
        obtain ⟨hne, hdigits, hmin, rfl⟩ := (convertDigits_negative s n).mp h
        exact .minus hne hdigits hmin
      · subst hplus
        obtain ⟨hne, hdigits, hmax, rfl⟩ := (convertDigits_positive s n).mp h
        exact .plus hne hdigits hmax
      · obtain ⟨hne, hdigits, hmax, rfl⟩ := (convertDigits_positive (c :: s) n).mp h
        exact .positive hne hdigits hmax
  · intro h
    cases h with
    | positive hne hdigits hmax =>
      obtain ⟨c, s, rfl⟩ := List.exists_cons_of_ne_nil hne
      have hc := digit_bounds (hdigits c List.mem_cons_self)
      have hspace := not_isSpace_of_isDigit (hdigits c List.mem_cons_self)
      have hminus : c ≠ '-' := fun h => by simp [h] at hc
      have hplus : c ≠ '+' := fun h => by simp [h] at hc
      rw [rangeToNumber, if_neg (by simp [hspace]), if_neg hminus, if_neg hplus]
      exact (convertDigits_positive _ _).mpr ⟨hne, hdigits, hmax, rfl⟩
    | plus hne hdigits hmax =>
      exact (convertDigits_positive _ _).mpr ⟨hne, hdigits, hmax, rfl⟩
    | minus hne hdigits hmin =>
      exact (convertDigits_negative _ _).mpr ⟨hne, hdigits, hmin, rfl⟩

/-! ## The digits of a number -/

theorem digit_of_mod (n : Nat) : (Char.ofNat (n % 10 + '0'.toNat)).isDigit = true ∧
    (Char.ofNat (n % 10 + '0'.toNat)).toNat - 48 = n % 10 := by
  have hall : ∀ i < 10, (Char.ofNat (i + '0'.toNat)).isDigit = true ∧
      (Char.ofNat (i + '0'.toNat)).toNat - 48 = i := by decide
  exact hall (n % 10) (Nat.mod_lt n (by omega))

/-- With enough room the digits written are those of the number, before what is there. -/
theorem writeDigits_spec (extra room n : Nat) (hroom : n < 10 ^ (room + 1)) (written : Text) :
    ∃ digits, writeDigits (room + extra + 1) n written = some (digits ++ written) ∧ digits ≠ [] ∧
      digits.length ≤ room + 1 ∧ (∀ c ∈ digits, c.isDigit = true) ∧
      (digits.head? = some '0' → digits.length = 1) ∧
      decimalValue 0 digits = n := by
  induction room generalizing n written with
  | zero =>
    obtain ⟨hdigit, hvalue⟩ := digit_of_mod n
    refine ⟨[Char.ofNat (n % 10 + '0'.toNat)], ?_, List.cons_ne_nil _ _, Nat.le_refl _, ?_, ?_, ?_⟩
    · rw [writeDigits, if_pos (by omega), List.singleton_append]
    · simpa using hdigit
    · intro _
      rfl
    · rw [decimalValue_cons, hvalue, decimalValue, List.foldl_nil]
      omega
  | succ room ih =>
    obtain ⟨hdigit, hvalue⟩ := digit_of_mod n
    rw [writeDigits, Nat.succ_add]
    by_cases hn : n / 10 = 0
    · refine ⟨[Char.ofNat (n % 10 + '0'.toNat)], ?_, List.cons_ne_nil _ _, ?_, ?_, ?_, ?_⟩
      · simp only [hn, if_true, List.singleton_append]
      · simp
      · simpa using hdigit
      · intro _
        rfl
      · rw [decimalValue_cons, hvalue, decimalValue, List.foldl_nil]
        omega
    · have hlt : n / 10 < 10 ^ (room + 1) := by
        rw [Nat.pow_succ] at hroom
        omega
      obtain ⟨digits, hwrite, hne, hlen, hdigits, hhead, hdvalue⟩ :=
        ih (n / 10) hlt (Char.ofNat (n % 10 + '0'.toNat) :: written)
      refine ⟨digits ++ [Char.ofNat (n % 10 + '0'.toNat)], ?_, by simp, ?_, ?_, ?_, ?_⟩
      · simp only [if_neg hn, hwrite, List.append_assoc, List.singleton_append]
      · simp only [List.length_append, List.length_singleton]
        omega
      · simp only [List.mem_append, List.mem_singleton]
        rintro c (hc | rfl)
        · exact hdigits c hc
        · exact hdigit
      · -- The digits before the last one are not a single zero.
        intro h0
        rw [List.head?_append_of_ne_nil _ hne] at h0
        obtain ⟨c, rfl⟩ := List.length_eq_one_iff.mp (hhead h0)
        cases h0
        exact absurd hdvalue.symm hn
      · have hlast : decimalValue 0 (digits ++ [Char.ofNat (n % 10 + '0'.toNat)]) =
            decimalValue (decimalValue 0 digits) [Char.ofNat (n % 10 + '0'.toNat)] := by
          simp only [decimalValue, List.foldl_append]
        rw [hlast, decimalValue_cons, hdvalue, hvalue, decimalValue, List.foldl_nil]
        omega

/-- Every `int` is written in the buffer, and what is written is converted to it. -/
theorem intToString_spec {n : Int} (hmin : intMin ≤ n) (hmax : n ≤ intMax) :
    ∃ sign digits, intToString n = some (sign ++ digits) ∧ (sign = [] ∨ sign = ['-']) ∧
      digits ≠ [] ∧ (∀ c ∈ digits, c.isDigit = true) ∧
      (digits.head? = some '0' → digits.length = 1) ∧ SpellsInt (sign ++ digits) n := by
  have hroom : n.natAbs < 10 ^ (9 + 1) := by
    simp only [intMin, intMax] at hmin hmax
    omega
  obtain ⟨digits, hwrite, hne, hlen, hdigits, hhead, hvalue⟩ :=
    writeDigits_spec 3 9 n.natAbs hroom []
  have hwrite : writeDigits outputBufSize n.natAbs [] = some digits := by
    rw [List.append_nil] at hwrite
    exact hwrite
  by_cases hn : n < 0
  · refine ⟨['-'], digits, ?_, Or.inr rfl, hne, hdigits, hhead, ?_⟩
    · have hfits : digits.length < outputBufSize := by
        rw [outputBufSize]
        omega
      simp only [intToString, hwrite, Option.bind_eq_bind, Option.bind_some, if_pos hn,
        if_pos hfits, List.singleton_append]
    · have hneg : n = -(decimalValue 0 digits : Int) := by omega
      rw [hneg] at hmin
      have h := SpellsInt.minus hne hdigits hmin
      rwa [← hneg] at h
  · refine ⟨[], digits, ?_, Or.inl rfl, hne, hdigits, hhead, ?_⟩
    · simp only [intToString, hwrite, Option.bind_eq_bind, Option.bind_some, if_neg hn,
        List.nil_append]
    · have hpos : n = (decimalValue 0 digits : Int) := by omega
      rw [hpos] at hmax
      have h := SpellsInt.positive hne hdigits hmax
      rwa [← hpos] at h

end Psych
