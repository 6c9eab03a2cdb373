import Psych.Text.Strings
import Mathlib.Data.List.DropRight

/-!
# Tokens and cells

`chromium::StringTokenizer` without quotes or options (`QuickGetNext`), and
`chromium::SplitString`, which trims every piece.
-/

namespace Psych

/-- `QuickGetNext`, from where the last token ended: skip delimiters, then take
characters up to the next one. The result is the token and what follows it. -/
def quickGetNext (delims : Text) : Text → Option (Text × Text)
  | [] => none
  | c :: rest =>
    if delims.contains c then quickGetNext delims rest
    else
      some (c :: rest.takeWhile (!delims.contains ·), rest.dropWhile (!delims.contains ·))

/-- The tokens `GetNext` yields in at most `n` calls. -/
def tokensWithin (delims : Text) : Nat → Text → List Text
  | 0, _ => []
  | n + 1, s =>
    match quickGetNext delims s with
    | none => []
    | some (token, rest) => token :: tokensWithin delims n rest

/-- All tokens of a string: each takes a character, so `s.length` calls are enough. -/
def tokens (delims s : Text) : List Text := tokensWithin delims s.length s

theorem quickGetNext_spec {delims s token rest : Text}
    (h : quickGetNext delims s = some (token, rest)) :
    token ≠ [] ∧ rest.length + token.length ≤ s.length := by
  induction s with
  | nil => cases h
  | cons c s ih =>
    rw [quickGetNext] at h
    split at h
    · obtain ⟨hne, hlen⟩ := ih h
      exact ⟨hne, by simp only [List.length_cons]; omega⟩
    · cases h
      refine ⟨List.cons_ne_nil _ _, ?_⟩
      have hsplit := congrArg List.length
        (List.takeWhile_append_dropWhile (p := (!delims.contains ·)) (l := s))
      rw [List.length_append] at hsplit
      simp only [List.length_cons]
      omega

/-- More calls than characters yield no further token. -/
theorem tokensWithin_of_le {delims : Text} {n : Nat} {s : Text} (h : s.length ≤ n) :
    tokensWithin delims n s = tokens delims s := by
  unfold tokens
  induction n using Nat.strong_induction_on generalizing s with
  | _ n ih =>
    cases n with
    | zero =>
      have hs : s = [] := List.length_eq_zero_iff.mp (by omega)
      rw [hs]
      rfl
    | succ n =>
      cases hs : s.length with
      | zero =>
        rw [List.length_eq_zero_iff.mp hs]
        rfl
      | succ m =>
        rw [tokensWithin, tokensWithin]
        cases hq : quickGetNext delims s with
        | none => rfl
        | some p =>
          obtain ⟨token, rest⟩ := p
          obtain ⟨hne, hlen⟩ := quickGetNext_spec hq
          have hpos := List.length_pos_iff.mpr hne
          dsimp only
          rw [ih n (by omega) (by omega : rest.length ≤ n)]
          by_cases hmn : m = n
          · rw [hmn, ih n (by omega) (by omega : rest.length ≤ n)]
          · rw [ih m (by omega) (by omega : rest.length ≤ m)]

theorem tokens_delim {delims : Text} {c : Char} (hc : c ∈ delims) (s : Text) :
    tokens delims (c :: s) = tokens delims s := by
  have hskip : quickGetNext delims (c :: s) = quickGetNext delims s := by
    rw [quickGetNext, if_pos (List.contains_iff_mem.mpr hc)]
  rw [← tokensWithin_of_le (show s.length ≤ s.length + 1 by omega), tokens, List.length_cons,
    tokensWithin, tokensWithin, hskip]

/-- A token ends at the first delimiter after it. -/
theorem tokens_append_delim {delims line : Text} {c : Char} (hc : c ∈ delims) (hne : line ≠ [])
    (hline : ∀ d ∈ line, d ∉ delims) (s : Text) :
    tokens delims (line ++ c :: s) = line :: tokens delims s := by
  cases line with
  | nil => exact absurd rfl hne
  | cons d line =>
    have hd : delims.contains d = false := by
      simpa using hline d List.mem_cons_self
    have hall : ∀ x ∈ line, (!delims.contains x) = true := by
      intro x hx
      simpa using hline x (List.mem_cons_of_mem d hx)
    have hstop : (!delims.contains c) = false := by simpa using hc
    have hnext : quickGetNext delims (d :: line ++ c :: s) = some (d :: line, c :: s) := by
      rw [List.cons_append, quickGetNext, if_neg (by simpa using hd),
        List.takeWhile_append_of_pos hall, List.dropWhile_append_of_pos hall,
        List.takeWhile_cons_of_neg (by simpa using hstop),
        List.dropWhile_cons_of_neg (by simpa using hstop), List.append_nil]
    rw [tokens, List.cons_append, List.length_cons, tokensWithin, ← List.cons_append, hnext]
    dsimp only
    rw [tokensWithin_of_le (by simp only [List.length_append, List.length_cons]; omega),
      tokens_delim hc]

/-- The lines of a text in which every line is ended. -/
theorem tokens_flatMap {delims : Text} {c : Char} (hc : c ∈ delims) {lines : List Text}
    (hne : ∀ line ∈ lines, line ≠ []) (hline : ∀ line ∈ lines, ∀ d ∈ line, d ∉ delims) :
    tokens delims (lines.flatMap fun line => line ++ [c]) = lines := by
  induction lines with
  | nil => rfl
  | cons line lines ih =>
    rw [List.flatMap_cons, List.append_assoc, List.singleton_append,
      tokens_append_delim hc (hne line List.mem_cons_self) (hline line List.mem_cons_self),
      ih (fun l hl => hne l (List.mem_cons_of_mem _ hl))
        (fun l hl => hline l (List.mem_cons_of_mem _ hl))]

/-! ## Cells -/

/-- `TrimWhitespace (s, TRIM_ALL)`. -/
def trimWhitespace (s : Text) : Text := (s.dropWhile isSpace).rdropWhile isSpace

/-- `SplitString (s, sep)`: the pieces between separators, each trimmed. -/
def splitString (s : Text) (sep : Char) : List Text := (s.splitOn sep).map trimWhitespace

theorem splitString_ne_nil (s : Text) (sep : Char) : splitString s sep ≠ [] := by
  simp [splitString, List.splitOn, List.splitOnP_ne_nil]

theorem length_splitString (s : Text) (sep : Char) :
    (splitString s sep).length = s.count sep + 1 := by
  rw [splitString, List.length_map]
  induction s with
  | nil => rfl
  | cons c s ih =>
    have hne : s.splitOn sep ≠ [] := List.splitOnP_ne_nil _ _
    have hcons : (c :: s).splitOn sep = if c == sep then [] :: s.splitOn sep
        else (s.splitOn sep).modifyHead (List.cons c) := List.splitOnP_cons_eq_if_modifyHead _ _
    rw [hcons, List.count_cons]
    split
    · rw [List.length_cons, ih]
    · rw [List.length_modifyHead, ih, Nat.add_zero]

/-- A text that `TrimWhitespace` leaves as it is, also before further white space. -/
def trimmed (s : Text) : Bool := !s.head?.any isSpace && !s.getLast?.any isSpace

theorem trimWhitespace_append {s pad : Text} (hs : trimmed s = true)
    (hpad : ∀ c ∈ pad, isSpace c = true) : trimWhitespace (s ++ pad) = s := by
  unfold trimmed at hs
  rw [Bool.and_eq_true, Bool.not_eq_true', Bool.not_eq_true'] at hs
  obtain ⟨hhead, hlast⟩ := hs
  have hstart : (s ++ pad).dropWhile isSpace = s ++ pad ∨ s = [] := by
    cases s with
    | nil => exact Or.inr rfl
    | cons c s => exact Or.inl (List.dropWhile_cons_of_neg (by simpa using hhead))
  have hend : (s ++ pad).rdropWhile isSpace = s.rdropWhile isSpace := by
    unfold List.rdropWhile
    rw [List.reverse_append,
      List.dropWhile_append_of_pos (fun c hc => hpad c (List.mem_reverse.mp hc))]
  have hself : s.rdropWhile isSpace = s := by
    apply List.rdropWhile_eq_self_iff.mpr
    intro hne
    rw [List.getLast?_eq_some_getLast hne] at hlast
    simpa using hlast
  unfold trimWhitespace
  rcases hstart with hstart | rfl
  · rw [hstart, hend, hself]
  · rw [List.nil_append, List.dropWhile_eq_nil_iff.mpr hpad]
    rfl

/-- Cells come back from their line, also where white space ends it. -/
theorem splitString_intercalate {sep : Char} {cells : List Text} {pad : Text} (hne : cells ≠ [])
    (hsep : ∀ cell ∈ cells, sep ∉ cell) (htrim : ∀ cell ∈ cells, trimmed cell = true)
    (hpad : ∀ c ∈ pad, isSpace c = true ∧ c ≠ sep) :
    splitString ([sep].intercalate cells ++ pad) sep = cells := by
  unfold splitString
  induction cells with
  | nil => exact absurd rfl hne
  | cons cell cells ih =>
    have hcell := hsep cell List.mem_cons_self
    have htrimmed := htrim cell List.mem_cons_self
    cases cells with
    | nil =>
      have hmem : sep ∉ cell ++ pad := by
        intro hmem
        rcases List.mem_append.mp hmem with h | h
        · exact hcell h
        · exact (hpad sep h).2 rfl
      rw [List.intercalate_singleton, List.splitOn_eq_singleton hmem, List.map_singleton,
        trimWhitespace_append htrimmed fun c hc => (hpad c hc).1]
    | cons next cells =>
      have hrest := ih (List.cons_ne_nil _ _) (fun l hl => hsep l (List.mem_cons_of_mem _ hl))
        (fun l hl => htrim l (List.mem_cons_of_mem _ hl))
      rw [List.intercalate_cons_cons, List.append_assoc, List.append_assoc,
        List.singleton_append, List.splitOn_append_cons_self_of_not_mem hcell, List.map_cons,
        hrest]
      have hself : trimWhitespace (cell ++ []) = cell :=
        trimWhitespace_append htrimmed (by simp)
      rw [List.append_nil] at hself
      rw [hself]

example : tokens "\n".toList "\n# a\n\nb".toList = ["# a".toList, "b".toList] := by decide

example : splitString "Sector\t Buzz\r".toList '\t' = ["Sector".toList, "Buzz".toList] := by
  decide

end Psych
