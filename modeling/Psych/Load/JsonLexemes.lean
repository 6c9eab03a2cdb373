import Mathlib.Data.List.Infix
import Mathlib.Data.List.TakeDrop
import Psych.Load.JsonTokens

/-!
# The lexical grammar of JSON

What a blank and a token are, apart from how they are read. `eatWhitespaceAndComments` passes over
the longest blank, and `tokenAt` finds a token at exactly the texts that start with one.
-/

namespace Psych

/-! ## Blanks -/

/-- White space and closed comments. -/
inductive Blank : Text → Prop
  | nil : Blank []
  | space {c : Char} {b : Text} (hc : isJsonSpace c = true) (hb : Blank b) : Blank (c :: b)
  | lineComment {comment b : Text} {c : Char} (hcomment : ∀ d ∈ comment, isLineEnd d = false)
      (hc : isLineEnd c = true) (hb : Blank b) : Blank ('/' :: '/' :: (comment ++ c :: b))
  | blockComment {comment b : Text} (hcomment : ¬['*', '/'] <:+: comment) (hb : Blank b) :
      Blank ('/' :: '*' :: (comment ++ '*' :: '/' :: b))

/-- What is left to read of a blank in one of the loops. -/
inductive BlankFrom : Eating → Text → Prop
  | whitespace {b : Text} (hb : Blank b) : BlankFrom .whitespace b
  | lineComment {comment b : Text} {c : Char} (hcomment : ∀ d ∈ comment, isLineEnd d = false)
      (hc : isLineEnd c = true) (hb : Blank b) : BlankFrom .lineComment (comment ++ c :: b)
  | blockComment {comment b : Text} (hcomment : ¬['*', '/'] <:+: comment) (hb : Blank b) :
      BlankFrom .blockComment (comment ++ '*' :: '/' :: b)

theorem BlankFrom.blank {b : Text} (h : BlankFrom .whitespace b) : Blank b := by
  cases h with
  | whitespace hb => exact hb

/-- No blank starts here. -/
def AtRest (s : Text) : Prop := eatWhitespaceAndComments s = s

theorem eat_space {c : Char} (hc : isJsonSpace c = true) (s : Text) :
    eatWhitespaceAndComments (c :: s) = eatWhitespaceAndComments s := by
  rw [eatWhitespaceAndComments, eatFrom.eq_def]
  simp only [hc, if_true, eatWhitespaceAndComments]

theorem eat_slashes (s : Text) :
    eatWhitespaceAndComments ('/' :: '/' :: s) = eatFrom .lineComment s := rfl

theorem eat_slash_star (s : Text) :
    eatWhitespaceAndComments ('/' :: '*' :: s) = eatFrom .blockComment s := rfl

theorem atRest_cons {c : Char} (s : Text) (hspace : isJsonSpace c = false) (hslash : c ≠ '/') :
    AtRest (c :: s) := by
  rw [AtRest, eatWhitespaceAndComments, eatFrom.eq_def]
  simp [hspace, hslash]

theorem eatFrom_lineComment {comment : Text} {c : Char}
    (hcomment : ∀ d ∈ comment, isLineEnd d = false) (hc : isLineEnd c = true) (s : Text) :
    eatFrom .lineComment (comment ++ c :: s) = eatWhitespaceAndComments s := by
  induction comment with
  | nil => simp [eatFrom, hc, eatWhitespaceAndComments]
  | cons d comment ih =>
    rw [List.cons_append, eatFrom, hcomment d List.mem_cons_self]
    exact ih fun e he => hcomment e (List.mem_cons_of_mem _ he)

theorem eatFrom_blockComment {comment : Text} (hcomment : ¬['*', '/'] <:+: comment) (s : Text) :
    eatFrom .blockComment (comment ++ '*' :: '/' :: s) = eatWhitespaceAndComments s := by
  induction comment with
  | nil => simp [eatFrom, eatWhitespaceAndComments]
  | cons c comment ih =>
    have hrest : ¬['*', '/'] <:+: comment := fun h => hcomment (List.infix_cons h)
    cases comment with
    | nil => simp [eatFrom, eatWhitespaceAndComments]
    | cons d comment =>
      have hopen : ¬(c = '*' ∧ d = '/') := by
        rintro ⟨rfl, rfl⟩
        exact hcomment ⟨[], comment, rfl⟩
      rw [List.cons_append, List.cons_append, eatFrom, if_neg hopen]
      exact ih hrest

/-- A blank before a text is passed over. -/
theorem eat_blank {b : Text} (hb : Blank b) (s : Text) :
    eatWhitespaceAndComments (b ++ s) = eatWhitespaceAndComments s := by
  induction hb with
  | nil => rfl
  | space hc hb ih => rw [List.cons_append, eat_space hc, ih]
  | lineComment hcomment hc hb ih =>
    rw [List.cons_append, List.cons_append, List.append_assoc, List.cons_append, eat_slashes,
      eatFrom_lineComment hcomment hc, ih]
  | blockComment hcomment hb ih =>
    rw [List.cons_append, List.cons_append, List.append_assoc, List.cons_append,
      List.cons_append, eat_slash_star, eatFrom_blockComment hcomment, ih]

/-- What is eaten is a blank, or all of the text where a comment is not closed. -/
theorem eatFrom_spec (m : Eating) (s : Text) :
    AtRest (eatFrom m s) ∧
      ∃ b, s = b ++ eatFrom m s ∧ (BlankFrom m b ∨ eatFrom m s = []) := by
  fun_induction eatFrom m s with
  | case1 m => exact ⟨rfl, [], rfl, Or.inr rfl⟩
  | case2 c s hc ih =>
    obtain ⟨hrest, b, hs, hb⟩ := ih
    refine ⟨hrest, c :: b, congrArg (c :: ·) hs, hb.imp_left fun h => ?_⟩
    exact .whitespace (.space hc h.blank)
  | case3 => exact ⟨rfl, [], rfl, Or.inl (.whitespace .nil)⟩
  | case4 s hc ih =>
    obtain ⟨hrest, b, hs, hb⟩ := ih
    refine ⟨hrest, '/' :: '/' :: b, congrArg ('/' :: '/' :: ·) hs, hb.imp_left fun h => ?_⟩
    cases h with
    | lineComment hcomment hc hblank => exact .whitespace (.lineComment hcomment hc hblank)
  | case5 s hc hstar ih =>
    obtain ⟨hrest, b, hs, hb⟩ := ih
    refine ⟨hrest, '/' :: '*' :: b, congrArg ('/' :: '*' :: ·) hs, hb.imp_left fun h => ?_⟩
    cases h with
    | blockComment hcomment hblank => exact .whitespace (.blockComment hcomment hblank)
  | case6 d s hslash hstar hc =>
    refine ⟨?_, [], rfl, Or.inl (.whitespace .nil)⟩
    rw [AtRest, eatWhitespaceAndComments, eatFrom.eq_def]
    simp [hc, hslash, hstar]
  | case7 c s hc hslash =>
    exact ⟨atRest_cons s (by simpa using hc) hslash, [], rfl,
      Or.inl (.whitespace .nil)⟩
  | case8 c s ih =>
    obtain ⟨hrest, b, hs, hb⟩ := ih
    refine ⟨hrest, c :: b, congrArg (c :: ·) hs, hb.imp_left fun h => ?_⟩
    cases hc : isLineEnd c with
    | true =>
      rw [hc, if_pos rfl] at h
      exact @BlankFrom.lineComment [] b c (by simp) hc h.blank
    | false =>
      rw [hc, if_neg Bool.false_ne_true] at h
      cases h with
      | @lineComment comment b e hcomment he hblank =>
        exact @BlankFrom.lineComment (c :: comment) b e
          (fun d hd => (List.mem_cons.mp hd).elim (fun h => h ▸ hc) (hcomment d)) he hblank
  | case9 c => exact ⟨rfl, [c], rfl, Or.inr rfl⟩
  | case10 c d s hclose ih =>
    obtain ⟨hrest, b, hs, hb⟩ := ih
    obtain ⟨rfl, rfl⟩ := hclose
    refine ⟨hrest, '*' :: '/' :: b, congrArg ('*' :: '/' :: ·) hs, hb.imp_left fun h => ?_⟩
    exact @BlankFrom.blockComment [] b (by simp) h.blank
  | case11 c d s hopen ih =>
    obtain ⟨hrest, b, hs, hb⟩ := ih
    refine ⟨hrest, c :: b, congrArg (c :: ·) hs, hb.imp_left fun h => ?_⟩
    cases h with
    | @blockComment comment b hcomment hblank =>
      refine @BlankFrom.blockComment (c :: comment) b (fun hin => ?_) hblank
      rcases List.infix_cons_iff.mp hin with hpre | hin
      · -- The comment would end at `c`, with the character that comes next.
        rw [List.cons_prefix_cons] at hpre
        obtain ⟨hstar, t, ht⟩ := hpre
        rw [← ht] at hs
        exact hopen ⟨hstar.symm, (List.cons.inj hs).1⟩
      · exact hcomment hin

theorem eat_idem (s : Text) :
    eatWhitespaceAndComments (eatWhitespaceAndComments s) = eatWhitespaceAndComments s :=
  (eatFrom_spec .whitespace s).1

theorem eat_suffix (s : Text) : eatWhitespaceAndComments s <:+ s := by
  obtain ⟨-, b, hs, -⟩ := eatFrom_spec .whitespace s
  exact ⟨b, hs.symm⟩

/-! ## Numbers -/

/-- The digits `ReadInt` takes for an integer. -/
structure IsInt (canHaveLeadingZeros : Bool) (digits : Text) : Prop where
  ne_nil : digits ≠ []
  isDigit : ∀ c ∈ digits, c.isDigit = true
  leading : canHaveLeadingZeros = false → digits.head? = some '0' → digits.length = 1

def IsFraction (f : Text) : Prop := f = [] ∨ ∃ digits, f = '.' :: digits ∧ IsInt true digits

def IsExponent (x : Text) : Prop :=
  x = [] ∨ ∃ e sign digits, x = e :: (sign ++ digits) ∧ (e = 'e' ∨ e = 'E') ∧
    (sign = [] ∨ sign = ['-'] ∨ sign = ['+']) ∧ IsInt true digits

/-- `[minus] int [frac] [exp]`. -/
def IsNumber (n : Text) : Prop :=
  ∃ minus int fraction exponent, (minus = [] ∨ minus = ['-']) ∧ IsInt false int ∧
    IsFraction fraction ∧ IsExponent exponent ∧ n = minus ++ int ++ fraction ++ exponent

/-- No character of a number comes next. -/
def NumberEnds (s : Text) : Prop :=
  ∀ c, s.head? = some c → c.isDigit = false ∧ c ≠ '.' ∧ c ≠ 'e' ∧ c ≠ 'E'

theorem readInt_spec {z : Bool} {s digits rest : Text} (h : readInt z s = some (digits, rest)) :
    IsInt z digits ∧ s = digits ++ rest := by
  unfold readInt at h
  simp only at h
  split at h
  · cases h
  · rename_i hlen
    split at h
    · cases h
    · rename_i hleading
      cases h
      refine ⟨⟨?_, fun c hc => List.mem_takeWhile_imp hc, ?_⟩,
        (List.takeWhile_append_dropWhile).symm⟩
      · intro hnil
        exact hlen (congrArg List.length hnil)
      · rintro rfl hhead
        by_contra hne
        apply hleading
        simp only [Bool.not_false, Bool.true_and, Bool.and_eq_true, decide_eq_true_eq,
          beq_iff_eq]
        exact ⟨by omega, hhead⟩

theorem span_digits {digits : Text} (hdigits : ∀ c ∈ digits, c.isDigit = true) {s : Text}
    (hs : ∀ c, s.head? = some c → c.isDigit = false) :
    (digits ++ s).takeWhile Char.isDigit = digits ∧
      (digits ++ s).dropWhile Char.isDigit = s := by
  induction digits with
  | nil =>
    cases s with
    | nil => exact ⟨rfl, rfl⟩
    | cons c s => simp [hs c rfl]
  | cons c digits ih =>
    obtain ⟨htake, hdrop⟩ := ih fun d hd => hdigits d (List.mem_cons_of_mem _ hd)
    simp [hdigits c List.mem_cons_self, htake, hdrop]

theorem readInt_append {z : Bool} {digits s : Text} (h : IsInt z digits)
    (hs : ∀ c, s.head? = some c → c.isDigit = false) :
    readInt z (digits ++ s) = some (digits, s) := by
  obtain ⟨htake, hdrop⟩ := span_digits h.isDigit hs
  have hlen := List.length_pos_iff.mpr h.ne_nil
  unfold readInt
  simp only [htake, hdrop]
  rw [if_neg (by omega), if_neg]
  simp only [Bool.and_eq_true, Bool.not_eq_true', decide_eq_true_eq, beq_iff_eq, not_and]
  rintro ⟨hz, hlong⟩ hhead
  have := h.leading hz hhead
  omega

theorem readOptional_spec (accepted : Char → Bool) (s : Text) :
    ((readOptional accepted s).1 = [] ∨
      ∃ c, (readOptional accepted s).1 = [c] ∧ accepted c = true) ∧
      s = (readOptional accepted s).1 ++ (readOptional accepted s).2 := by
  cases s with
  | nil => exact ⟨Or.inl rfl, rfl⟩
  | cons c s =>
    cases h : accepted c with
    | true => exact ⟨Or.inr ⟨c, by simp [readOptional, h]⟩, by simp [readOptional, h]⟩
    | false => exact ⟨Or.inl (by simp [readOptional, h]), by simp [readOptional, h]⟩

theorem readOptional_none {accepted : Char → Bool} {s : Text}
    (hs : ∀ c, s.head? = some c → accepted c = false) : readOptional accepted s = ([], s) := by
  cases s with
  | nil => rfl
  | cons c s => simp [readOptional, hs c rfl]

theorem readFraction_spec {s f rest : Text} (h : readFraction s = some (f, rest)) :
    IsFraction f ∧ s = f ++ rest := by
  obtain ⟨hread, hs⟩ := readOptional_spec (· == '.') s
  unfold readFraction at h
  split at h
  · rename_i s' heq
    cases h
    rw [heq] at hs
    exact ⟨Or.inl rfl, hs⟩
  · rename_i point s' hne heq
    rw [heq] at hread hs
    obtain ⟨⟨digits, rest'⟩, hint, hf⟩ := Option.map_eq_some_iff.mp h
    cases hf
    obtain ⟨hdigits, rfl⟩ := readInt_spec hint
    rcases hread with hnil | ⟨c, rfl, hpoint⟩
    · exact absurd hnil hne
    · cases eq_of_beq hpoint
      exact ⟨Or.inr ⟨digits, rfl, hdigits⟩, by simpa using hs⟩

theorem readExponent_spec {s x rest : Text} (h : readExponent s = some (x, rest)) :
    IsExponent x ∧ s = x ++ rest := by
  obtain ⟨hread, hs⟩ := readOptional_spec (fun c => c == 'e' || c == 'E') s
  unfold readExponent at h
  split at h
  · rename_i s' heq
    cases h
    rw [heq] at hs
    exact ⟨Or.inl rfl, hs⟩
  · rename_i e s' hne heq
    rw [heq] at hread hs
    obtain ⟨hsign, hs'⟩ := readOptional_spec (fun c => c == '-' || c == '+') s'
    generalize readOptional (fun c => c == '-' || c == '+') s' = signed at h hsign hs'
    obtain ⟨sign, s''⟩ := signed
    obtain ⟨⟨digits, rest'⟩, hint, hx⟩ := Option.map_eq_some_iff.mp h
    cases hx
    obtain ⟨hdigits, rfl⟩ := readInt_spec hint
    rcases hread with hnil | ⟨c, rfl, he⟩
    · exact absurd hnil hne
    · refine ⟨Or.inr ⟨c, sign, digits, rfl, by simpa using he, ?_, hdigits⟩, ?_⟩
      · rcases hsign with hnil | ⟨d, rfl, hor⟩
        · exact Or.inl hnil
        · exact Or.inr (by simpa using hor)
      · rw [hs, hs']
        simp

theorem readNumber_spec {s n : Text} (h : readNumber s = some n) :
    IsNumber n ∧ ∃ rest, s = n ++ rest := by
  obtain ⟨hminus, hs⟩ := readOptional_spec (· == '-') s
  simp only [readNumber, Option.bind_eq_bind, Option.bind_eq_some_iff, Prod.exists] at h
  obtain ⟨int, s₁, hint, fraction, s₂, hfraction, exponent, s₃, hexponent, hn⟩ := h
  obtain ⟨hint, hs₁⟩ := readInt_spec hint
  obtain ⟨hfraction, hs₂⟩ := readFraction_spec hfraction
  obtain ⟨hexponent, hs₃⟩ := readExponent_spec hexponent
  cases hn
  refine ⟨⟨_, int, fraction, exponent, ?_, hint, hfraction, hexponent, rfl⟩, s₃, ?_⟩
  · rcases hminus with hnil | ⟨c, hc, hor⟩
    · exact Or.inl hnil
    · exact Or.inr (by rw [hc, eq_of_beq hor])
  · calc s = (readOptional (· == '-') s).1 ++ (readOptional (· == '-') s).2 := hs
      _ = _ := by rw [hs₁, hs₂, hs₃]; simp only [List.append_assoc]

theorem IsInt.head {z : Bool} {digits : Text} (h : IsInt z digits) :
    ∃ c rest, digits = c :: rest ∧ c.isDigit = true := by
  cases digits with
  | nil => exact absurd rfl h.ne_nil
  | cons c rest => exact ⟨c, rest, rfl, h.isDigit c List.mem_cons_self⟩

theorem readExponent_append {x s : Text} (h : IsExponent x) (hs : NumberEnds s) :
    readExponent (x ++ s) = some (x, s) := by
  rcases h with rfl | ⟨e, sign, digits, rfl, he, hsign, hdigits⟩
  · have hnone : readOptional (fun c => c == 'e' || c == 'E') s = ([], s) :=
      readOptional_none fun c hc => by simp [(hs c hc).2.2.1, (hs c hc).2.2.2]
    rw [List.nil_append, readExponent, hnone]
  · have hsome : readOptional (fun c => c == 'e' || c == 'E') (e :: (sign ++ digits) ++ s) =
        ([e], sign ++ (digits ++ s)) := by
      rcases he with rfl | rfl <;> simp [readOptional]
    have hread : readOptional (fun c => c == '-' || c == '+') (sign ++ (digits ++ s)) =
        (sign, digits ++ s) := by
      rcases hsign with rfl | rfl | rfl
      · obtain ⟨c, rest, rfl, hc⟩ := hdigits.head
        refine readOptional_none fun d hd => ?_
        cases hd
        have hminus : c ≠ '-' := fun h => by simp [h] at hc
        have hplus : c ≠ '+' := fun h => by simp [h] at hc
        simp [hminus, hplus]
      · rfl
      · rfl
    rw [readExponent, hsome]
    simp only [hread, readInt_append hdigits fun c hc => (hs c hc).1, Option.map_some,
      List.cons_append, List.nil_append]

/-- The first character of an exponent, or of what comes after the number. -/
theorem exponent_head {x s : Text} (h : IsExponent x) (hs : NumberEnds s) (c : Char)
    (hc : (x ++ s).head? = some c) : c.isDigit = false ∧ c ≠ '.' := by
  rcases h with rfl | ⟨e, sign, digits, rfl, he, -⟩
  · exact ⟨(hs c hc).1, (hs c hc).2.1⟩
  · cases hc
    rcases he with rfl | rfl <;> decide

theorem readFraction_append {f x s : Text} (h : IsFraction f) (hx : IsExponent x)
    (hs : NumberEnds s) : readFraction (f ++ (x ++ s)) = some (f, x ++ s) := by
  rcases h with rfl | ⟨digits, rfl, hdigits⟩
  · have hnone : readOptional (· == '.') (x ++ s) = ([], x ++ s) :=
      readOptional_none fun c hc => by simp [(exponent_head hx hs c hc).2]
    rw [List.nil_append, readFraction, hnone]
  · have hsome : readOptional (· == '.') ('.' :: digits ++ (x ++ s)) =
        (['.'], digits ++ (x ++ s)) := rfl
    rw [readFraction, hsome]
    simp only [readInt_append hdigits fun c hc => (exponent_head hx hs c hc).1,
      Option.map_some, List.singleton_append]

/-- A number is read to its end. -/
theorem readNumber_append {n s : Text} (h : IsNumber n) (hs : NumberEnds s) :
    readNumber (n ++ s) = some n := by
  obtain ⟨minus, int, fraction, exponent, hminus, hint, hfraction, hexponent, rfl⟩ := h
  have hread : readOptional (· == '-') (minus ++ (int ++ (fraction ++ (exponent ++ s)))) =
      (minus, int ++ (fraction ++ (exponent ++ s))) := by
    rcases hminus with rfl | rfl
    · obtain ⟨c, rest, rfl, hc⟩ := hint.head
      refine readOptional_none fun d hd => ?_
      cases hd
      exact beq_false_of_ne fun h => by simp [h] at hc
    · rfl
  have hfollow : ∀ c, (fraction ++ (exponent ++ s)).head? = some c → c.isDigit = false := by
    intro c hc
    rcases hfraction with rfl | ⟨digits, rfl, -⟩
    · exact (exponent_head hexponent hs c hc).1
    · cases hc
      decide
  simp only [readNumber, List.append_assoc, hread, Option.bind_eq_bind, Option.bind_some,
    readInt_append hint hfollow, readFraction_append hfraction hexponent hs,
    readExponent_append hexponent hs]

/-! ## Strings -/

/-- What may stand between the quotes. -/
inductive StringBody : Text → Prop
  | nil : StringBody []
  | plain {c : Char} {b : Text} (hslash : c ≠ '\\') (hquote : c ≠ '"') (hb : StringBody b) :
      StringBody (c :: b)
  | escape {e : Char} {b : Text} (he : isSimpleEscape e = true) (hb : StringBody b) :
      StringBody ('\\' :: e :: b)
  | hex {h₁ h₂ : Char} {b : Text} (hdigits : [h₁, h₂].all isHexDigit = true) (hb : StringBody b) :
      StringBody ('\\' :: 'x' :: h₁ :: h₂ :: b)
  | unicode {h₁ h₂ h₃ h₄ : Char} {b : Text} (hdigits : [h₁, h₂, h₃, h₄].all isHexDigit = true)
      (hb : StringBody b) : StringBody ('\\' :: 'u' :: h₁ :: h₂ :: h₃ :: h₄ :: b)

theorem ScannedString.after_eq_body {read b : Text} {x : ScannedString}
    (h : x.after read = .body b) : ∃ b', x = .body b' ∧ b = read ++ b' := by
  cases x with
  | body b' => cases h; exact ⟨b', rfl, rfl⟩
  | unterminated => cases h
  | invalidEscape pos => cases h

theorem ScannedString.after_eq_invalidEscape {read pos : Text} {x : ScannedString}
    (h : x.after read = .invalidEscape pos) : x = .invalidEscape pos := by
  cases x with
  | body b' => cases h
  | unterminated => cases h
  | invalidEscape pos => exact h

theorem scanString_spec {s b : Text} (h : scanString s = .body b) :
    StringBody b ∧ ∃ rest, s = b ++ '"' :: rest := by
  fun_induction scanString s generalizing b with
  | case3 h₁ h₂ s hdigits ih =>
    obtain ⟨b, hb, rfl⟩ := ScannedString.after_eq_body h
    obtain ⟨hbody, rest, rfl⟩ := ih hb
    exact ⟨.hex hdigits hbody, rest, rfl⟩
  | case6 h₁ h₂ h₃ h₄ s hdigits hx ih =>
    obtain ⟨b, hb, rfl⟩ := ScannedString.after_eq_body h
    obtain ⟨hbody, rest, rfl⟩ := ih hb
    exact ⟨.unicode hdigits hbody, rest, rfl⟩
  | case9 e s hx hu he ih =>
    obtain ⟨b, hb, rfl⟩ := ScannedString.after_eq_body h
    obtain ⟨hbody, rest, rfl⟩ := ih hb
    exact ⟨.escape he hbody, rest, rfl⟩
  | case11 s hslash =>
    cases h
    exact ⟨.nil, s, rfl⟩
  | case12 c s hslash hquote ih =>
    obtain ⟨b, hb, rfl⟩ := ScannedString.after_eq_body h
    obtain ⟨hbody, rest, rfl⟩ := ih hb
    exact ⟨.plain hslash hquote hbody, rest, rfl⟩
  | _ => cases h

/-- An invalid escape sequence is reported at the character after its backslash. -/
theorem scanString_invalidEscape {s pos : Text} (h : scanString s = .invalidEscape pos) :
    '\\' :: pos <:+ s := by
  fun_induction scanString s with
  | case1 => cases h
  | case2 => cases h; exact List.suffix_rfl
  | case3 h₁ h₂ s hdigits ih =>
    exact (ih (ScannedString.after_eq_invalidEscape h)).trans ⟨['\\', 'x', h₁, h₂], rfl⟩
  | case6 h₁ h₂ h₃ h₄ s hdigits hx ih =>
    exact (ih (ScannedString.after_eq_invalidEscape h)).trans
      ⟨['\\', 'u', h₁, h₂, h₃, h₄], rfl⟩
  | case9 e s hx hu he ih =>
    exact (ih (ScannedString.after_eq_invalidEscape h)).trans ⟨['\\', e], rfl⟩
  | case11 => cases h
  | case12 c s hslash hquote ih =>
    exact (ih (ScannedString.after_eq_invalidEscape h)).trans (List.suffix_cons c s)
  | _ => cases h; exact List.suffix_rfl

theorem isSimpleEscape_ne {e : Char} (h : isSimpleEscape e = true) : e ≠ 'x' ∧ e ≠ 'u' := by
  refine ⟨fun he => ?_, fun he => ?_⟩
  · rw [he] at h
    exact absurd h (by decide)
  · rw [he] at h
    exact absurd h (by decide)

theorem scanString_append {b : Text} (h : StringBody b) (rest : Text) :
    scanString (b ++ '"' :: rest) = .body b := by
  induction h with
  | nil =>
    have hslash : ¬ '"' = '\\' := by decide
    rw [List.nil_append, scanString.eq_def]
    simp only [if_neg hslash, if_true]
  | @plain c b hslash hquote hb ih =>
    rw [List.cons_append, scanString.eq_def]
    simp only [if_neg hslash, if_neg hquote, ih, ScannedString.after, List.singleton_append]
  | @escape e b he hb ih =>
    obtain ⟨hx, hu⟩ := isSimpleEscape_ne he
    rw [List.cons_append, List.cons_append, scanString.eq_def]
    simp only [if_true, if_neg hx, if_neg hu, he, ih, ScannedString.after, List.cons_append,
      List.nil_append]
  | @hex h₁ h₂ b hdigits hb ih =>
    simp only [List.cons_append]
    rw [scanString.eq_def]
    simp only [if_true, hdigits, ih, ScannedString.after, List.cons_append, List.nil_append]
  | @unicode h₁ h₂ h₃ h₄ b hdigits hb ih =>
    have hu : ¬ 'u' = 'x' := by decide
    simp only [List.cons_append]
    rw [scanString.eq_def]
    simp only [if_true, if_neg hu, hdigits, ih, ScannedString.after, List.cons_append,
      List.nil_append]

/-! ## Tokens -/

/-- The tokens with a text. -/
def Lexeme (t : JsonToken) : Prop :=
  match t.type with
  | .objectBegin => t.text = ['{']
  | .objectEnd => t.text = ['}']
  | .arrayBegin => t.text = ['[']
  | .arrayEnd => t.text = [']']
  | .string => ∃ b, StringBody b ∧ t.text = '"' :: b ++ ['"']
  | .number => IsNumber t.text
  | .boolTrue => t.text = "true".toList
  | .boolFalse => t.text = "false".toList
  | .nullToken => t.text = "null".toList
  | .listSeparator => t.text = [',']
  | .objectPairSeparator => t.text = [':']
  | .endOfInput => False
  | .invalidToken => False

theorem punctuation_lexeme {c : Char} {type : JsonTokenType} (h : punctuation c = some type) :
    Lexeme ⟨type, [c]⟩ := by
  unfold punctuation at h
  split_ifs at h with h₁ h₂ h₃ h₄ h₅ h₆ <;> cases h <;> subst c <;> rfl

theorem keyword_lexeme {s : Text} {keyword : String} {type : JsonTokenType}
    (h : Lexeme ⟨type, keyword.toList⟩) :
    (Lexeme (keywordToken s keyword type) ∧
      ∃ rest, s = (keywordToken s keyword type).text ++ rest) ∨
      keywordToken s keyword type = .invalid := by
  unfold keywordToken
  split
  · rename_i hprefix
    obtain ⟨rest, hrest⟩ := List.isPrefixOf_iff_prefix.mp hprefix
    exact Or.inl ⟨h, rest, hrest.symm⟩
  · exact Or.inr rfl

/-- What `tokenAt` may find. -/
inductive Found (s : Text) : JsonToken × Option Text → Prop
  | lexeme {t : JsonToken} {rest : Text} (ht : Lexeme t) (hs : s = t.text ++ rest) :
      Found s (t, none)
  | endOfInput (hs : cStr s = []) : Found s (⟨.endOfInput, []⟩, none)
  | invalid : Found s (.invalid, none)
  | invalidEscape {pos : Text} (hpos : pos <:+ s) : Found s (.invalid, some pos)

theorem tokenAt_found (s : Text) : Found s (tokenAt s) := by
  cases s with
  | nil => exact .endOfInput rfl
  | cons c s =>
    have hkeyword : ∀ {keyword : String} {type : JsonTokenType},
        Lexeme ⟨type, keyword.toList⟩ → Found (c :: s) (keywordToken (c :: s) keyword type, none) := by
      intro keyword type h
      rcases keyword_lexeme h with ⟨ht, rest, hs⟩ | hinvalid
      · exact .lexeme ht hs
      · rw [hinvalid]
        exact .invalid
    unfold tokenAt
    dsimp only
    split_ifs with hnul hn ht hf hquote hnumber
    · exact .endOfInput (by simp [cStr, hnul])
    · exact hkeyword rfl
    · exact hkeyword rfl
    · exact hkeyword rfl
    · subst hquote
      unfold parseStringToken
      cases hscan : scanString s with
      | body b =>
        obtain ⟨hb, rest, rfl⟩ := scanString_spec hscan
        simp only [List.tail_cons, hscan]
        exact @Found.lexeme _ ⟨.string, '"' :: b ++ ['"']⟩ rest ⟨b, hb, rfl⟩ (by simp)
      | unterminated =>
        simp only [List.tail_cons, hscan]
        exact .invalid
      | invalidEscape pos =>
        simp only [List.tail_cons, hscan]
        refine .invalidEscape ?_
        have hpos := scanString_invalidEscape hscan
        exact (List.suffix_cons _ pos).trans (hpos.trans (List.suffix_cons _ s))
    · unfold parseNumberToken
      cases hn : readNumber (c :: s) with
      | none => exact .invalid
      | some n =>
        obtain ⟨hnumber, rest, hs⟩ := readNumber_spec hn
        exact .lexeme hnumber hs
    · cases hp : punctuation c with
      | none => exact .invalid
      | some type => exact .lexeme (punctuation_lexeme hp) rfl

theorem IsNumber.head {n : Text} (h : IsNumber n) :
    ∃ c rest, n = c :: rest ∧ (c.isDigit || c == '-') = true := by
  obtain ⟨minus, int, fraction, exponent, rfl | rfl, hint, -, -, rfl⟩ := h
  · obtain ⟨c, rest, rfl, hc⟩ := hint.head
    exact ⟨c, rest ++ fraction ++ exponent, by simp, by simp [hc]⟩
  · exact ⟨'-', int ++ fraction ++ exponent, by simp, by decide⟩

/-- The first character of a token is neither white space nor the start of a comment, nor that of a
byte order mark. -/
def TokenHead (c : Char) : Prop := isJsonSpace c = false ∧ c ≠ '/' ∧ c ≠ '\xef'

theorem tokenHead_number {c : Char} (h : (c.isDigit || c == '-') = true) : TokenHead c := by
  have hne : ∀ d : Char, (d.isDigit || d == '-') = false → c ≠ d := by
    rintro d hd rfl
    rw [h] at hd
    cases hd
  refine ⟨?_, hne _ (by decide), hne _ (by decide)⟩
  simp only [isJsonSpace, Bool.or_eq_false_iff, beq_eq_false_iff_ne]
  exact ⟨⟨⟨hne _ (by decide), hne _ (by decide)⟩, hne _ (by decide)⟩, hne _ (by decide)⟩

theorem Lexeme.head {t : JsonToken} (h : Lexeme t) :
    ∃ c rest, t.text = c :: rest ∧ TokenHead c := by
  obtain ⟨type, text⟩ := t
  cases type with
  | number =>
    obtain ⟨c, rest, htext, hc⟩ := IsNumber.head h
    exact ⟨c, rest, htext, tokenHead_number hc⟩
  | string =>
    obtain ⟨b, -, htext⟩ := h
    exact ⟨'"', b ++ ['"'], htext, by unfold TokenHead; decide⟩
  | endOfInput => cases h
  | invalidToken => cases h
  | boolTrue => exact ⟨'t', "rue".toList, h, by unfold TokenHead; decide⟩
  | boolFalse => exact ⟨'f', "alse".toList, h, by unfold TokenHead; decide⟩
  | nullToken => exact ⟨'n', "ull".toList, h, by unfold TokenHead; decide⟩
  | _ => exact ⟨_, [], h, by unfold TokenHead; decide⟩

theorem Lexeme.ne_nil {t : JsonToken} (h : Lexeme t) : t.text ≠ [] := by
  obtain ⟨c, rest, htext, -⟩ := h.head
  rw [htext]
  exact List.cons_ne_nil c rest

theorem Lexeme.atRest {t : JsonToken} (h : Lexeme t) (s : Text) : AtRest (t.text ++ s) := by
  obtain ⟨c, rest, htext, hspace, hslash, -⟩ := h.head
  rw [htext]
  exact atRest_cons _ hspace hslash

theorem keywordToken_append (keyword : String) (type : JsonTokenType) (s : Text) :
    keywordToken (keyword.toList ++ s) keyword type = ⟨type, keyword.toList⟩ := by
  rw [keywordToken, if_pos]
  exact List.isPrefixOf_iff_prefix.mpr (List.prefix_append _ _)

theorem tokenAt_number {c : Char} (hc : (c.isDigit || c == '-') = true) (s : Text) :
    tokenAt (c :: s) = (parseNumberToken (c :: s), none) := by
  have hne : ∀ d : Char, (d.isDigit || d == '-') = false → ¬c = d := by
    rintro d hd rfl
    rw [hc] at hd
    cases hd
  rw [tokenAt, if_neg (hne _ (by decide)), if_neg (hne _ (by decide)), if_neg (hne _ (by decide)),
    if_neg (hne _ (by decide)), if_neg (hne _ (by decide)), if_pos hc]

/-- A token is found where its text stands. -/
theorem tokenAt_append {t : JsonToken} (h : Lexeme t) {s : Text}
    (hs : t.type = .number → NumberEnds s) : tokenAt (t.text ++ s) = (t, none) := by
  obtain ⟨type, text⟩ := t
  cases type with
  | number =>
    obtain ⟨c, rest, htext, hc⟩ := IsNumber.head h
    have htoken : tokenAt (text ++ s) = (parseNumberToken (text ++ s), none) := by
      have htext : text = c :: rest := htext
      rw [htext]
      exact tokenAt_number hc (rest ++ s)
    rw [htoken, parseNumberToken, readNumber_append h (hs rfl)]
  | string =>
    obtain ⟨b, hb, htext⟩ := h
    have htext : text = '"' :: b ++ ['"'] := htext
    have htoken : tokenAt ('"' :: (b ++ '"' :: s)) = parseStringToken ('"' :: (b ++ '"' :: s)) := rfl
    rw [htext, List.cons_append, List.cons_append, List.append_assoc, List.singleton_append,
      htoken, parseStringToken, List.tail_cons, scanString_append hb]
    rfl
  | endOfInput => cases h
  | invalidToken => cases h
  | boolTrue =>
    have h : text = "true".toList := h
    rw [h]
    exact congrArg (·, none) (keywordToken_append "true" .boolTrue s)
  | boolFalse =>
    have h : text = "false".toList := h
    rw [h]
    exact congrArg (·, none) (keywordToken_append "false" .boolFalse s)
  | nullToken =>
    have h : text = "null".toList := h
    rw [h]
    exact congrArg (·, none) (keywordToken_append "null" .nullToken s)
  | _ =>
    cases (h : text = _)
    rfl

end Psych
