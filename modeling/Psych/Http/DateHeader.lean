import Mathlib.Data.List.DropRight
import Psych.Http.Connection

/-!
# The words of a date header

`on_http_header` reads two words of a date line into buffers of 26 characters, and bounds nothing
but the length of the line. The first is the word after `Date:`; the second is what follows the
number that the next word has to begin with, whether in the same word or in another
(`stored_words_iff`).
-/

namespace Psych

/-! ## Words -/

/-- The words of a text, its longest pieces without white space. -/
def words (s : Text) : List Text := (s.splitOnP isSpace).filter (!·.isEmpty)

/-- A text that a word ends before: it is empty or starts with white space. -/
def EndsWord (s : Text) : Prop := ∀ c, s.head? = some c → isSpace c = true

theorem words_cons_space {c : Char} (hc : isSpace c = true) (s : Text) :
    words (c :: s) = words s := by
  unfold words
  rw [List.splitOnP_cons_eq_if_modifyHead, if_pos hc]
  rfl

theorem words_dropWhile (s : Text) : words (s.dropWhile isSpace) = words s := by
  induction s with
  | nil => rfl
  | cons c s ih =>
    cases hc : isSpace c with
    | true => rw [List.dropWhile_cons_of_pos hc, ih, words_cons_space hc]
    | false => rw [List.dropWhile_cons_of_neg (by simp [hc])]

theorem words_append {word rest : Text} (hword : ∀ c ∈ word, isSpace c = false)
    (hrest : EndsWord rest) :
    words (word ++ rest) = if word = [] then words rest else word :: words rest := by
  cases rest with
  | nil =>
    unfold words
    rw [List.append_nil, List.splitOnP_eq_singleton hword]
    cases word <;> rfl
  | cons c rest =>
    have hc : isSpace c = true := hrest c rfl
    rw [words_cons_space hc]
    unfold words
    rw [List.splitOnP_append_cons_of_forall_mem hword c hc]
    cases word <;> rfl

theorem endsWord_dropWhile (s : Text) : EndsWord (s.dropWhile (!isSpace ·)) := by
  intro c hc
  have hnot := List.head?_dropWhile_not (!isSpace ·) s
  rw [hc] at hnot
  simpa using hnot

theorem head_not_space {s rest : Text} {c : Char} (h : s.dropWhile isSpace = c :: rest) :
    isSpace c = false := by
  have hnot := List.head?_dropWhile_not isSpace s
  rw [h] at hnot
  exact hnot

theorem takeWhile_word {s : Text} {c : Char} (hc : c ∈ s.takeWhile (!isSpace ·)) :
    isSpace c = false := by
  simpa using List.mem_takeWhile_imp hc

/-- The first word, and the words after it. -/
theorem words_first (s : Text) (hne : (s.dropWhile isSpace).takeWhile (!isSpace ·) ≠ []) :
    words s = (s.dropWhile isSpace).takeWhile (!isSpace ·) ::
      words ((s.dropWhile isSpace).dropWhile (!isSpace ·)) := by
  have happend := @words_append ((s.dropWhile isSpace).takeWhile (!isSpace ·)) _
    (fun c hc => takeWhile_word hc) (endsWord_dropWhile (s.dropWhile isSpace))
  rw [List.takeWhile_append_dropWhile, words_dropWhile, if_neg hne] at happend
  exact happend

theorem words_eq_nil {s : Text} (h : (s.dropWhile isSpace).takeWhile (!isSpace ·) = []) :
    words s = [] := by
  rw [← words_dropWhile]
  cases hs : s.dropWhile isSpace with
  | nil => rfl
  | cons c rest =>
    rw [hs, List.takeWhile_cons_of_pos (by simp [head_not_space hs])] at h
    cases h

theorem head?_words (s text : Text) :
    (words s).head? = some text ↔ text ≠ [] ∧ text = (words s).headD [] := by
  cases hs : words s with
  | nil => simp
  | cons word rest =>
    have hmem : word ∈ words s := hs ▸ List.mem_cons_self
    have hne : word ≠ [] := by
      simpa using (List.mem_filter.mp hmem).2
    constructor
    · intro h
      obtain rfl := Option.some.inj h
      exact ⟨hne, rfl⟩
    · rintro ⟨_, rfl⟩
      rfl

/-- The first word follows white space, and ends before white space or the end. -/
theorem exists_first_word {s day : Text} {rest : List Text} (h : words s = day :: rest) :
    ∃ tail, s.dropWhile isSpace = day ++ tail ∧ day ≠ [] ∧ (∀ c ∈ day, isSpace c = false) ∧
      EndsWord tail ∧ words tail = rest := by
  by_cases hne : (s.dropWhile isSpace).takeWhile (!isSpace ·) = []
  · rw [words_eq_nil hne] at h
    cases h
  · rw [words_first s hne] at h
    obtain ⟨rfl, rfl⟩ := List.cons.inj h
    exact ⟨_, List.takeWhile_append_dropWhile.symm, hne, fun c hc => takeWhile_word hc,
      endsWord_dropWhile _, rfl⟩

/-! ## Numbers at the start of words -/

/-- The word begins with a number, signed or not. -/
def startsNumber (word : Text) : Bool := (afterSign word).head?.any Char.isDigit

/-- What follows the number in the word. -/
def afterNumber (word : Text) : Text := (afterSign word).dropWhile Char.isDigit

theorem not_isDigit_of_isSpace {c : Char} (h : isSpace c = true) : c.isDigit = false := by
  unfold isSpace at h
  by_contra hdigit
  rw [Bool.not_eq_false, Char.isDigit_iff_toNat] at hdigit
  simp only [Bool.or_eq_true, beq_iff_eq, Bool.and_eq_true, decide_eq_true_eq] at h
  rcases h with rfl | ⟨_, hle⟩
  · exact absurd hdigit (by decide)
  · have hnat : c.toNat ≤ '\r'.toNat := hle
    have hr : '\r'.toNat = 13 := rfl
    have hzero : '0'.toNat = 48 := rfl
    omega

theorem afterSign_append {word : Text} (hne : word ≠ []) (rest : Text) :
    afterSign (word ++ rest) = afterSign word ++ rest := by
  cases word with
  | nil => exact absurd rfl hne
  | cons c word =>
    rw [List.cons_append]
    unfold afterSign
    split <;> simp_all

theorem afterSign_suffix (s : Text) : afterSign s <:+ s := by
  unfold afterSign
  split
  · exact List.suffix_cons _ _
  · exact List.suffix_cons _ _
  · exact List.suffix_refl _

theorem readInteger_digits (s : Text) :
    (readInteger s).2 = (afterSign (s.dropWhile isSpace)).head?.any Char.isDigit := by
  unfold readInteger afterSign
  generalize s.dropWhile isSpace = t
  split <;> simp_all

theorem head_append_digit {x : Text} {rest : Text} (hrest : EndsWord rest) :
    (x ++ rest).head?.any Char.isDigit = x.head?.any Char.isDigit := by
  cases x with
  | cons c x => rfl
  | nil =>
    cases rest with
    | nil => rfl
    | cons c rest => exact not_isDigit_of_isSpace (hrest c rfl)

theorem dropWhile_append_digit {x : Text} {rest : Text} (hrest : EndsWord rest) :
    (x ++ rest).dropWhile Char.isDigit = x.dropWhile Char.isDigit ++ rest := by
  induction x with
  | nil =>
    cases rest with
    | nil => rfl
    | cons c rest =>
      exact List.dropWhile_cons_of_neg (by simp [not_isDigit_of_isSpace (hrest c rfl)])
  | cons c x ih =>
    cases hc : c.isDigit with
    | true => rw [List.cons_append, List.dropWhile_cons_of_pos hc, ih, List.dropWhile_cons_of_pos hc]
    | false =>
      rw [List.cons_append, List.dropWhile_cons_of_neg (by simp [hc]),
        List.dropWhile_cons_of_neg (by simp [hc])]
      rfl

/-! ## Scanning -/

theorem sscanf_word (format : List Directive) (s : Text) :
    sscanf (.space :: .string :: format) s =
      match words s with
      | [] => []
      | word :: _ => .string word ::
        sscanf format ((s.dropWhile isSpace).dropWhile (!isSpace ·)) := by
  rw [sscanf, sscanf, List.dropWhile_idempotent]
  by_cases hne : (s.dropWhile isSpace).takeWhile (!isSpace ·) = []
  · rw [words_eq_nil hne, hne]
  · rw [words_first s hne]
    split
    · contradiction
    · rfl

theorem sscanf_number_nil (format : List Directive) {s : Text} (h : words s = []) :
    sscanf (.space :: .hu :: format) s = [] := by
  have hnil : s.dropWhile isSpace = [] := by
    cases hs : s.dropWhile isSpace with
    | nil => rfl
    | cons c rest =>
      have hfirst := words_first s (by simp [hs, head_not_space hs])
      rw [h] at hfirst
      cases hfirst
  rw [sscanf, hnil]
  rfl

/-- A number is read from the start of the next word, and the rest of the word stays. -/
theorem sscanf_number (format : List Directive) {s day : Text} {rest : List Text}
    (h : words s = day :: rest) :
    if startsNumber day = true then
      ∃ n r, sscanf (.space :: .hu :: format) s = .hu n :: sscanf format r ∧
        words r = if afterNumber day = [] then rest else afterNumber day :: rest
    else sscanf (.space :: .hu :: format) s = [] := by
  obtain ⟨tail, hs, hne, hday, htail, hrest⟩ := exists_first_word h
  have hdigits : (readInteger (s.dropWhile isSpace)).2 = startsNumber day := by
    rw [readInteger_digits, List.dropWhile_idempotent, hs, afterSign_append hne,
      head_append_digit htail]
    rfl
  have hafter : (afterSign ((s.dropWhile isSpace).dropWhile isSpace)).dropWhile Char.isDigit =
      afterNumber day ++ tail := by
    rw [List.dropWhile_idempotent, hs, afterSign_append hne, dropWhile_append_digit htail]
    rfl
  rw [sscanf, sscanf, hafter]
  cases hread : readInteger (s.dropWhile isSpace) with
  | mk n digits =>
    rw [hread] at hdigits
    subst hdigits
    cases hstarts : startsNumber day with
    | false => rfl
    | true =>
      refine ⟨toUShort n, afterNumber day ++ tail, rfl, ?_⟩
      rw [← hrest]
      refine words_append (fun c hc => hday c ?_) htail
      exact (afterSign_suffix day).subset ((List.dropWhile_suffix _).subset hc)

/-- A format without `%s` stores no text. -/
theorem sscanf_no_text {format : List Directive} (h : .string ∉ format) (s text : Text) :
    .string text ∉ sscanf format s := by
  induction format generalizing s with
  | nil => exact List.not_mem_nil
  | cons directive format ih =>
    have hformat : .string ∉ format := fun hmem => h (List.mem_cons_of_mem _ hmem)
    cases directive with
    | string => exact absurd List.mem_cons_self h
    | space => exact ih hformat _
    | lit c =>
      cases s with
      | nil => exact List.not_mem_nil
      | cons d s =>
        rw [sscanf]
        split
        · exact ih hformat _
        · exact List.not_mem_nil
    | hu =>
      rw [sscanf]
      split
      · exact List.not_mem_nil
      · simpa using ih hformat _

/-! ## The two words -/

/-- The text where the name of the month is expected. -/
def monthText : List Text → Text
  | _ :: day :: rest =>
    if startsNumber day then
      if afterNumber day = [] then rest.headD [] else afterNumber day
    else []
  | _ => []

/-- The directives after the name of the month. -/
def timeFormat : List Directive := [.space, .hu, .space, .hu, .lit ':', .hu, .lit ':', .hu]

/-- The directives after the first word. -/
def dayFormat : List Directive := .space :: .hu :: .space :: .string :: timeFormat

theorem sscanf_month (s text : Text) :
    .string text ∈ sscanf (.space :: .string :: timeFormat) s ↔
      text ≠ [] ∧ text = (words s).headD [] := by
  rw [← head?_words, sscanf_word]
  cases words s with
  | nil => simp
  | cons word rest =>
    have hno := @sscanf_no_text timeFormat (by decide)
      ((s.dropWhile isSpace).dropWhile (!isSpace ·)) text
    simp [hno, eq_comm]

theorem sscanf_day (s word text : Text) :
    .string text ∈ sscanf dayFormat s ↔ text ≠ [] ∧ text = monthText (word :: words s) := by
  unfold dayFormat
  cases hs : words s with
  | nil => simp [sscanf_number_nil _ hs, monthText]
  | cons day rest =>
    have hnumber := sscanf_number (.space :: .string :: timeFormat) hs
    rw [monthText]
    cases hstarts : startsNumber day with
    | false =>
      rw [hstarts, if_neg (by simp)] at hnumber
      rw [if_neg (by simp)]
      simp [hnumber]
    | true =>
      rw [hstarts, if_pos rfl] at hnumber
      obtain ⟨n, r, hscan, hwords⟩ := hnumber
      have hmonth := sscanf_month r text
      rw [hwords] at hmonth
      rw [if_pos rfl, hscan]
      have hskip : Stored.string text ≠ .hu n := nofun
      rw [List.mem_cons, or_iff_right hskip, hmonth]
      split <;> rfl

/-- What is stored of the text after `Date:` is the first word, and the text after the day. -/
theorem stored_words_iff {line : Text} (h : "Date:".toList <+: line) (text : Text) :
    .string text ∈ sscanf dateFormat line ↔ text ≠ [] ∧
      (text = (words (line.drop 5)).headD [] ∨ text = monthText (words (line.drop 5))) := by
  obtain ⟨s, rfl⟩ := h
  have hscan : sscanf dateFormat ("Date:".toList ++ s) = sscanf (.space :: .string :: dayFormat) s :=
    rfl
  have hdrop : ("Date:".toList ++ s).drop 5 = s := rfl
  rw [hscan, hdrop, sscanf_word]
  cases hs : words s with
  | nil => simp [monthText]
  | cons word rest =>
    obtain ⟨tail, hdropped, hne, hword, htail, hrest⟩ := exists_first_word hs
    have hfirst := words_first s (fun hnil => by rw [words_eq_nil hnil] at hs; cases hs)
    rw [hs] at hfirst
    have hday := sscanf_day ((s.dropWhile isSpace).dropWhile (!isSpace ·)) word text
    rw [← (List.cons.inj hfirst).2] at hday
    rw [List.mem_cons, hday]
    constructor
    · rintro (heq | ⟨htext, heq⟩)
      · obtain rfl := Stored.string.inj heq
        exact ⟨hne, Or.inl rfl⟩
      · exact ⟨htext, Or.inr heq⟩
    · rintro ⟨htext, heq | heq⟩
      · exact Or.inl (congrArg Stored.string heq)
      · exact Or.inr ⟨htext, heq⟩

/-! ## The buffers -/

/-- A line that `on_http_header` takes for a date. -/
structure DateHeader (line : Text) : Prop where
  date : "Date:".toList <+: cStr line
  length : (cStr line).length ≤ dateLine.length

/-- Every text that is stored for a `%s` fits into `ddd` and `MMM`, with its terminator. -/
def WordsFit (line : Text) : Prop :=
  ∀ text, .string text ∈ sscanf dateFormat (cStr line) → text.length ≤ 25

/-- Both words fit into their buffers exactly where the first word after `Date:` and the text
after the day have at most 25 characters. -/
theorem date_words_fit_iff {line : Text} (h : DateHeader line) :
    WordsFit line ↔ ((words ((cStr line).drop 5)).headD []).length ≤ 25 ∧
      (monthText (words ((cStr line).drop 5))).length ≤ 25 := by
  unfold WordsFit
  simp only [stored_words_iff h.date]
  constructor
  · intro hall
    refine ⟨?_, ?_⟩
    · by_cases hnil : (words ((cStr line).drop 5)).headD [] = []
      · rw [hnil]
        exact Nat.zero_le _
      · exact hall _ ⟨hnil, Or.inl rfl⟩
    · by_cases hnil : monthText (words ((cStr line).drop 5)) = []
      · rw [hnil]
        exact Nat.zero_le _
      · exact hall _ ⟨hnil, Or.inr rfl⟩
  · rintro ⟨hfirst, hmonth⟩ text ⟨_, rfl | rfl⟩
    · exact hfirst
    · exact hmonth

/-- The line of a server that keeps to the format. -/
theorem sample_date_words_fit : WordsFit "Date: Thu, 03 May 2012 21:18:59 GMT\r\n".toList :=
  (date_words_fit_iff ⟨by decide, by decide⟩).mpr (by decide)

/-- A line of the greatest length, with one word of 30 letters. -/
def longWordLine : Text := "Date:".toList ++ List.replicate 30 'a' ++ "\r\n".toList

theorem long_word_overflows : DateHeader longWordLine ∧ ¬ WordsFit longWordLine := by
  refine ⟨⟨by decide, by decide⟩, fun h => ?_⟩
  exact absurd (h (List.replicate 30 'a') (by decide)) (by decide)

end Psych
