import Mathlib.Data.Char
import Psych.Library.OrderedMap
import Psych.Text.Tokens

/-!
# The command line

A command line is its words: the program, then switches and arguments up to the word `--`, after
which everything is an argument. A switch that is given twice has its last value
(`parseFromString_switches`).
-/

namespace Psych

structure CommandLine where
  argv : List Text := [[]]
  beginArgs : Nat := 1
  switches : List (Text × Text) := []

def kSwitchTerminator : Text := "--".toList

/-- The match is lazy: longer prefixes come first. -/
def kSwitchPrefixes : List Text := ["--".toList, "-".toList]

def getSwitchPrefixLength (string : Text) : Nat :=
  match kSwitchPrefixes.find? (·.isPrefixOf string) with
  | some found => found.length
  | none => 0

/-- `IsSwitch`: the switch with its prefix, and its value. -/
def isSwitch (string : Text) : Option (Text × Text) :=
  if getSwitchPrefixLength string = 0 then none
  else some (string.takeWhile (· ≠ '='), (string.dropWhile (· ≠ '=')).tail)

namespace CommandLine

def appendSwitchNative (switchString value : Text) (c : CommandLine) : CommandLine :=
  let prefixLength := getSwitchPrefixLength switchString
  let combined := if prefixLength = 0 then "--".toList ++ switchString else switchString
  let combined := if value.isEmpty then combined else combined ++ '=' :: value
  { argv := c.argv.insertIdx c.beginArgs combined
    beginArgs := c.beginArgs + 1
    switches := OrderedMap.assign c.switches (switchString.drop prefixLength, value) }

def appendArgNative (value : Text) (c : CommandLine) : CommandLine :=
  { c with argv := c.argv ++ [value] }

/-- The loop of `AppendSwitchesAndArguments`; `parse` is `parse_switches`. -/
def appendWords : Bool → List Text → CommandLine → CommandLine
  | _, [], c => c
  | parse, arg :: args, c =>
    let arg := trimWhitespace arg
    let parse := parse && arg != kSwitchTerminator
    match if parse then isSwitch arg else none with
    | some (switchString, switchValue) =>
      appendWords parse args (c.appendSwitchNative switchString switchValue)
    | none => appendWords parse args (c.appendArgNative arg)

/-- The first word is the program. -/
def appendSwitchesAndArguments (argv : List Text) (c : CommandLine) : CommandLine :=
  appendWords true argv.tail c

def initFromArgv (argv : List Text) (c : CommandLine) : CommandLine :=
  appendSwitchesAndArguments argv { c with argv := [[]], beginArgs := 1 }

def parseFromString (commandLine : Text) (c : CommandLine) : CommandLine :=
  if (trimWhitespace commandLine).isEmpty then c else c.initFromArgv (splitString commandLine ' ')

def hasSwitch (c : CommandLine) (switchString : Text) : Bool :=
  (c.switches.lookup switchString).isSome

def getSwitchValueASCII (c : CommandLine) (switchString : Text) : Text :=
  (c.switches.lookup switchString).getD []

end CommandLine

/-! ## Words -/

/-- A text in which nothing separates words. -/
def IsWord (s : Text) : Prop := ∀ c ∈ s, isSpace c = false

theorem IsWord.append {s t : Text} (hs : IsWord s) (ht : IsWord t) : IsWord (s ++ t) := by
  intro c hc
  rcases List.mem_append.mp hc with h | h
  · exact hs c h
  · exact ht c h

theorem IsWord.trimmed {s : Text} (h : IsWord s) : trimmed s = true := by
  unfold Psych.trimmed
  rw [Bool.and_eq_true, Bool.not_eq_true', Bool.not_eq_true', Option.any_eq_false, Option.any_eq_false]
  constructor
  · intro c hc
    simp [h c (List.mem_of_head? hc)]
  · intro c hc
    simp [h c (List.mem_of_getLast? hc)]

theorem IsWord.trimWhitespace_eq {s : Text} (h : IsWord s) : trimWhitespace s = s := by
  have htrim := @trimWhitespace_append s [] h.trimmed (by simp)
  rwa [List.append_nil] at htrim

theorem IsWord.not_mem_blank {s : Text} (h : IsWord s) : ' ' ∉ s :=
  fun hmem => Bool.noConfusion (h ' ' hmem)

theorem trimWhitespace_ne_nil {s : Text} {c : Char} (hc : c ∈ s) (hspace : isSpace c = false) :
    trimWhitespace s ≠ [] := by
  intro hnil
  have hdrop : s.dropWhile isSpace = [] := by
    have hall := List.rdropWhile_eq_nil_iff.mp hnil
    by_contra hne
    have hhead := List.head_dropWhile_not isSpace hne
    rw [hall _ (List.head_mem hne)] at hhead
    cases hhead
  rw [List.dropWhile_eq_nil_iff.mp hdrop c hc] at hspace
  cases hspace

theorem mem_intercalate {sep c : Char} {cells : List Text} (hc : c ∈ [sep].intercalate cells) :
    c = sep ∨ ∃ cell ∈ cells, c ∈ cell := by
  induction cells with
  | nil => cases hc
  | cons cell cells ih =>
    cases cells with
    | nil =>
      rw [List.intercalate_singleton] at hc
      exact Or.inr ⟨cell, List.mem_cons_self, hc⟩
    | cons next cells =>
      rw [List.intercalate_cons_cons, List.append_assoc, List.mem_append, List.mem_append,
        List.mem_singleton] at hc
      rcases hc with hcell | hsep | hrest
      · exact Or.inr ⟨cell, List.mem_cons_self, hcell⟩
      · exact Or.inl hsep
      · rcases ih hrest with hsep | ⟨other, hother, hc⟩
        · exact Or.inl hsep
        · exact Or.inr ⟨other, List.mem_cons_of_mem cell hother, hc⟩

/-- The words of a line that holds them between blanks. -/
theorem splitString_words {words : List Text} (hne : words ≠ [])
    (hwords : ∀ word ∈ words, IsWord word) : splitString ([' '].intercalate words) ' ' = words := by
  have hsplit := @splitString_intercalate ' ' words [] hne
    (fun word hword => (hwords word hword).not_mem_blank)
    (fun word hword => (hwords word hword).trimmed) (by simp)
  rwa [List.append_nil] at hsplit

/-! ## Switches -/

/-- The name and the value of a switch. -/
def switchEntry (word : Text) : Option (Text × Text) :=
  (isSwitch word).map fun (switchString, switchValue) =>
    (switchString.drop (getSwitchPrefixLength switchString), switchValue)

/-- The switches of a command line, in their order. -/
def switchesOf (words : List Text) : List (Text × Text) :=
  (words.takeWhile (· != kSwitchTerminator)).filterMap switchEntry

theorem switchEntry_of_eq {name value : Text} (hname : '=' ∉ name) :
    switchEntry ("--".toList ++ (name ++ '=' :: value)) = some (name, value) := by
  have hdash : '=' ∉ "--".toList ++ name := by
    rw [List.mem_append]
    rintro (h | h)
    · exact absurd h (by decide)
    · exact hname h
  have hlen : ∀ rest, getSwitchPrefixLength ("--".toList ++ rest) = 2 := fun _ => rfl
  have hall : ∀ c ∈ "--".toList ++ name, decide (c ≠ '=') = true := by
    intro c hc
    exact decide_eq_true fun heq : c = '=' => hdash (heq ▸ hc)
  have htake : (("--".toList ++ name) ++ '=' :: value).takeWhile (· ≠ '=') =
      "--".toList ++ name := by
    rw [List.takeWhile_append_of_pos hall, List.takeWhile_cons_of_neg (by simp), List.append_nil]
  have hdrop : (("--".toList ++ name) ++ '=' :: value).dropWhile (· ≠ '=') = '=' :: value := by
    rw [List.dropWhile_append_of_pos hall, List.dropWhile_cons_of_neg (by simp)]
  rw [switchEntry, isSwitch, hlen, if_neg (by decide), ← List.append_assoc, htake, hdrop,
    Option.map_some]
  dsimp only
  rw [hlen]
  rfl

theorem appendWords_switches_false (args : List Text) (c : CommandLine) :
    (c.appendWords false args).switches = c.switches := by
  induction args generalizing c with
  | nil => rfl
  | cons arg args ih => exact ih _

theorem appendWords_switches {args : List Text} (hargs : ∀ arg ∈ args, IsWord arg)
    (c : CommandLine) :
    (c.appendWords true args).switches = (switchesOf args).foldl OrderedMap.assign c.switches := by
  induction args generalizing c with
  | nil => rfl
  | cons arg args ih =>
    have hrest := fun c => ih (fun a ha => hargs a (List.mem_cons_of_mem arg ha)) c
    rw [CommandLine.appendWords, (hargs arg List.mem_cons_self).trimWhitespace_eq, switchesOf]
    by_cases hstop : arg = kSwitchTerminator
    · have hparse : (arg != kSwitchTerminator) = false := by simpa using hstop
      rw [List.takeWhile_cons_of_neg (by simp [hparse]), hparse]
      exact appendWords_switches_false args _
    · have hparse : (arg != kSwitchTerminator) = true := by simpa using hstop
      rw [List.takeWhile_cons_of_pos (by exact hparse), List.filterMap_cons, switchEntry, hparse,
        Bool.and_self, if_pos rfl]
      cases hswitch : isSwitch arg with
      | none => exact hrest _
      | some found => exact hrest _

/-- A switch has the last value it is given before the terminator. -/
theorem parseFromString_switches {program : Text} {words : List Text} (hprogram : IsWord program)
    (hne : program ≠ []) (hwords : ∀ word ∈ words, IsWord word) (c : CommandLine) :
    (c.parseFromString ([' '].intercalate (program :: words))).switches =
      (switchesOf words).foldl OrderedMap.assign c.switches := by
  have hall : ∀ word ∈ program :: words, IsWord word := by
    intro word hword
    rcases List.mem_cons.mp hword with rfl | h
    · exact hprogram
    · exact hwords word h
  have hsplit := splitString_words (List.cons_ne_nil program words) hall
  obtain ⟨c₀, rest, rfl⟩ := List.exists_cons_of_ne_nil hne
  have hfirst : c₀ ∈ [' '].intercalate ((c₀ :: rest) :: words) := by
    cases words with
    | nil => exact List.mem_cons_self
    | cons word words => exact List.mem_cons_self
  have hline := trimWhitespace_ne_nil hfirst (hprogram c₀ List.mem_cons_self)
  rw [CommandLine.parseFromString, if_neg (by simpa using hline), hsplit]
  exact appendWords_switches hwords _

end Psych
