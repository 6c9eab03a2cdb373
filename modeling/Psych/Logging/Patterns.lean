import Psych.Library.Words
import Psych.Text.Strings

/-!
# Patterns of file names

`MatchVlogPattern` decides whether a name has the form of a pattern with wildcards. A pattern denotes
a language (`patternLanguage`): a slash stands for either slash, `?` for any character, `*` for any
text, every other character for itself. The function accepts exactly the names of that language
(`matchVlogPattern_iff`).
-/

namespace Psych

/-! ## The code -/

/-- What the `switch` of the first loop decides. -/
def takes (p s : Char) : Bool :=
  if p = '/' ∨ p = '\\' then s == '/' || s == '\\'
  else if p = '?' then true
  else p == s

/-- The first loop consumes characters until the next star: the pattern and the string it leaves, or
`none` where it returns false. -/
def consume : Text → Text → Option (Text × Text)
  | [], s => some ([], s)
  | p :: pattern, [] => some (p :: pattern, [])
  | p :: pattern, c :: s =>
    if p = '*' then some (p :: pattern, c :: s)
    else if takes p c then consume pattern s
    else none

/-- `MatchVlogPattern` with at most `n` calls of itself inside one another. -/
def matchWithin : Nat → Text → Text → Bool
  | 0, _, _ => false
  | n + 1, string, vlogPattern =>
    match consume vlogPattern string with
    | none => false
    | some (p, s) =>
      if p.isEmpty then s.isEmpty
      else
        -- runs of stars are one star
        let p := p.dropWhile (· == '*')
        if p.isEmpty then true
        else s.tails.dropLast.any fun s => matchWithin n s p

/-- `MatchVlogPattern`: the pattern of each call inside it is shorter. -/
def matchVlogPattern (string vlogPattern : Text) : Bool :=
  matchWithin (vlogPattern.length + 1) string vlogPattern

/-! ## The language of a pattern -/

def charLanguage (p : Char) : Language Char :=
  if p = '*' then ⊤ else Words.letter {c | takes p c = true}

def patternLanguage (vlogPattern : Text) : Language Char := (vlogPattern.map charLanguage).prod

theorem patternLanguage_cons (p : Char) (pattern : Text) :
    patternLanguage (p :: pattern) = charLanguage p * patternLanguage pattern := by
  unfold patternLanguage
  rw [List.map_cons, List.prod_cons]

theorem cons_mem_patternLanguage {p : Char} (hp : p ≠ '*') {pattern : Text} {c : Char} {s : Text} :
    c :: s ∈ patternLanguage (p :: pattern) ↔ takes p c = true ∧ s ∈ patternLanguage pattern := by
  rw [patternLanguage_cons, charLanguage, if_neg hp, Words.cons_mem_letter_mul]
  rfl

theorem nil_not_mem_patternLanguage {p : Char} (hp : p ≠ '*') (pattern : Text) :
    [] ∉ patternLanguage (p :: pattern) := by
  rw [patternLanguage_cons, charLanguage, if_neg hp]
  exact Words.nil_not_mem_letter_mul _ _

/-- A run of stars stands for any text. -/
theorem patternLanguage_stars (pattern : Text) :
    patternLanguage ('*' :: pattern) = ⊤ * patternLanguage (pattern.dropWhile (· == '*')) := by
  have hstar : ∀ pattern, patternLanguage ('*' :: pattern) = ⊤ * patternLanguage pattern :=
    patternLanguage_cons '*'
  induction pattern with
  | nil => exact hstar []
  | cons p pattern ih =>
    by_cases hp : p = '*'
    · rw [hp, hstar, ih, Words.top_mul_top_mul, List.dropWhile_cons_of_pos (by rfl)]
    · rw [hstar, List.dropWhile_cons_of_neg (by simpa using hp)]

/-! ## The loops -/

/-- What the first loop leaves decides the match, and it stops at a star or at an end. -/
theorem consume_spec (pattern string : Text) :
    (consume pattern string = none ∧ string ∉ patternLanguage pattern) ∨
    ∃ p s, consume pattern string = some (p, s) ∧ p.length ≤ pattern.length ∧
      (string ∈ patternLanguage pattern ↔ s ∈ patternLanguage p) ∧
      (p = [] ∨ s = [] ∨ p.head? = some '*') := by
  induction pattern generalizing string with
  | nil => exact Or.inr ⟨[], string, rfl, Nat.le_refl _, Iff.rfl, Or.inl rfl⟩
  | cons p pattern ih =>
    cases string with
    | nil => exact Or.inr ⟨p :: pattern, [], rfl, Nat.le_refl _, Iff.rfl, Or.inr (Or.inl rfl)⟩
    | cons c s =>
      rw [consume]
      by_cases hp : p = '*'
      · rw [if_pos hp]
        exact Or.inr ⟨p :: pattern, c :: s, rfl, Nat.le_refl _, Iff.rfl,
          Or.inr (Or.inr (congrArg some hp))⟩
      · rw [if_neg hp, cons_mem_patternLanguage hp]
        cases htakes : takes p c with
        | false => exact Or.inl ⟨rfl, fun h => Bool.noConfusion h.1⟩
        | true =>
          rcases ih s with ⟨hnone, hno⟩ | ⟨p', s', hsome, hle, hiff, hstop⟩
          · exact Or.inl ⟨hnone, fun h => hno h.2⟩
          · refine Or.inr ⟨p', s', hsome, Nat.le_succ_of_le hle, ?_, hstop⟩
            rw [← hiff]
            exact and_iff_right rfl

/-- The last loop tries every rest of the string that has a character. -/
theorem mem_tails_dropLast {s rest : Text} : rest ∈ s.tails.dropLast ↔ rest <:+ s ∧ rest ≠ [] := by
  induction s with
  | nil =>
    rw [List.suffix_nil]
    exact ⟨fun h => absurd h List.not_mem_nil, fun h => absurd h.1 h.2⟩
  | cons c s ih =>
    have hne : s.tails ≠ [] := List.ne_nil_of_mem ((List.mem_tails s s).mpr (List.suffix_refl s))
    rw [List.tails_cons, List.dropLast_cons_of_ne_nil hne, List.mem_cons, ih, List.suffix_cons_iff]
    constructor
    · rintro (rfl | ⟨hrest, hne⟩)
      · exact ⟨Or.inl rfl, List.cons_ne_nil c s⟩
      · exact ⟨Or.inr hrest, hne⟩
    · rintro ⟨rfl | hrest, hne⟩
      · exact Or.inl rfl
      · exact Or.inr ⟨hrest, hne⟩

theorem matchWithin_iff {n : Nat} {pattern : Text} (hn : pattern.length < n) (string : Text) :
    matchWithin n string pattern = true ↔ string ∈ patternLanguage pattern := by
  induction n generalizing pattern string with
  | zero => exact absurd hn (Nat.not_lt_zero _)
  | succ n ih =>
    rw [matchWithin]
    rcases consume_spec pattern string with ⟨hnone, hno⟩ | ⟨p, s, hsome, hle, hiff, hstop⟩
    · rw [hnone]
      exact iff_of_false Bool.false_ne_true hno
    · rw [hsome, hiff]
      dsimp only
      cases p with
      | nil =>
        rw [if_pos List.isEmpty_nil, List.isEmpty_iff]
        exact (Language.mem_one s).symm
      | cons q p =>
        rw [if_neg (by simp)]
        by_cases hq : q = '*'
        · subst hq
          rw [List.dropWhile_cons_of_pos (by rfl), patternLanguage_stars]
          have hshort : (p.dropWhile (· == '*')).length ≤ p.length :=
            List.length_dropWhile_le _ _
          rw [List.length_cons] at hle
          cases hrest : p.dropWhile (· == '*') with
          | nil =>
            rw [if_pos List.isEmpty_nil]
            exact iff_of_true rfl (Words.mem_top_mul.mpr ⟨[], List.nil_suffix, rfl⟩)
          | cons r p' =>
            have hr : r ≠ '*' := by
              have hhead := List.head_dropWhile_not (· == '*') (l := p) (by rw [hrest]; simp)
              simp only [hrest, List.head_cons] at hhead
              simpa using hhead
            rw [hrest, List.length_cons] at hshort
            rw [if_neg (by simp), List.any_eq_true, Words.mem_top_mul]
            constructor
            · rintro ⟨rest, hmem, hmatch⟩
              exact ⟨rest, (mem_tails_dropLast.mp hmem).1,
                (ih (by rw [List.length_cons]; omega) rest).mp hmatch⟩
            · rintro ⟨rest, hsuffix, hmem⟩
              refine ⟨rest, mem_tails_dropLast.mpr ⟨hsuffix, ?_⟩,
                (ih (by rw [List.length_cons]; omega) rest).mpr hmem⟩
              intro hnil
              rw [hnil] at hmem
              exact nil_not_mem_patternLanguage hr p' hmem
        · -- the string has come to its end
          have hs : s = [] := by
            rcases hstop with h | h | h
            · cases h
            · exact h
            · exact absurd (Option.some.inj h) hq
          rw [List.dropWhile_cons_of_neg (by simpa using hq), hs, if_neg (by simp)]
          exact iff_of_false (by simp) (nil_not_mem_patternLanguage hq p)

/-- A name is accepted exactly where it has the form of the pattern. -/
theorem matchVlogPattern_iff (string vlogPattern : Text) :
    matchVlogPattern string vlogPattern = true ↔ string ∈ patternLanguage vlogPattern :=
  matchWithin_iff (Nat.lt_succ_self _) string

example : (matchVlogPattern "khaaaaan".toList "kh*n".toList,
    matchVlogPattern "khaan".toList "kh?n".toList,
    matchVlogPattern "\\foo\\bar".toList "/foo\\bar".toList) = (true, false, true) := by decide

end Psych
