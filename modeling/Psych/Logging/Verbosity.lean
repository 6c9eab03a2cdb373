import Mathlib.Data.Bool.AllAny
import Psych.Logging.CommandLine
import Psych.Logging.Patterns
import Psych.Model.Calendar

/-!
# The verbosity

The environment sets how much is logged: `--v` the level everywhere, `--vmodule` a level for each
pattern of file names. `VlogSettings` says what is meant, and every file gets the level that is meant
for it, whatever other switches stand around the settings (`environment_verbosity`).
-/

namespace Psych

/-! ## Keys and values -/

/-- `SplitStringIntoKeyValues`: whether it succeeds, the key and the values. -/
def splitStringIntoKeyValues (line : Text) (keyValueDelimiter : Char) : Bool × Text × List Text :=
  if keyValueDelimiter ∈ line then
    let key := line.takeWhile (· ≠ keyValueDelimiter)
    let values := (line.dropWhile (· ≠ keyValueDelimiter)).dropWhile (· = keyValueDelimiter)
    if values.isEmpty then (false, key, []) else (true, key, [values])
  else (false, [], [])

/-- `SplitStringIntoKeyValuePairs`: a pair without a value is kept. -/
def splitStringIntoKeyValuePairs (line : Text) (keyValueDelimiter keyValuePairDelimiter : Char) :
    Bool × List (Text × Text) :=
  let pairs := (splitString line keyValuePairDelimiter).filter (!·.isEmpty)
  let results := pairs.map (splitStringIntoKeyValues · keyValueDelimiter)
  (results.all (·.1), results.map fun (_, key, values) => (key, values.head?.getD []))

/-! ## `VlogInfo` -/

/-- `std::atoi`, of the same range as a `long`. -/
def atoi (s : Text) : Int := atol s

inductive MatchTarget where
  | matchModule
  | matchFile
deriving DecidableEq

structure VmodulePattern where
  pattern : Text
  vlogLevel : Int := 0
  matchTarget : MatchTarget := .matchModule

def isSlash (c : Char) : Bool := c == '\\' || c == '/'

/-- A pattern with a slash is meant for the whole name of a file. -/
def vmodulePattern (pattern : Text) : VmodulePattern :=
  { pattern, matchTarget := if pattern.any isSlash then .matchFile else .matchModule }

/-- The settings of `logging.cc`: `min_log_level` and `g_vlog_info`, as its patterns. -/
structure LogSettings where
  minLogLevel : Int := 0
  vlogInfo : Option (List VmodulePattern) := none

/-- The constructor of `VlogInfo`. -/
def newVlogInfo (vSwitch vmoduleSwitch : Text) (settings : LogSettings) : LogSettings where
  minLogLevel := if vSwitch.isEmpty then settings.minLogLevel else toLong (-atoi vSwitch)
  vlogInfo := some <| (splitStringIntoKeyValuePairs vmoduleSwitch '=' ',').2.map
    fun (key, value) => { vmodulePattern key with vlogLevel := atoi value }

/-- The name without its directories, its extension and an `-inl`. -/
def getModule (file : Text) : Text :=
  let name := file.rtakeWhile (!isSlash ·)
  let name := if '.' ∈ name then (name.rdropWhile (· ≠ '.')).dropLast else name
  if "-inl".toList.isSuffixOf name then name.take (name.length - 4) else name

def VmodulePattern.target (pattern : VmodulePattern) (file : Text) : Text :=
  match pattern.matchTarget with
  | .matchFile => file
  | .matchModule => getModule file

namespace LogSettings

def getMaxVlogLevel (settings : LogSettings) : Int := toLong (-settings.minLogLevel)

def getVlogVerbosity (settings : LogSettings) : Int := max (-1) (toLong (0 - settings.minLogLevel))

/-- `GetVlogLevelHelper`: the level of the first pattern that matches. -/
def getVlogLevel (settings : LogSettings) (file : Text) : Int :=
  match settings.vlogInfo with
  | none => settings.getVlogVerbosity
  | some vmoduleLevels =>
    match vmoduleLevels.find? fun p => matchVlogPattern (p.target file) p.pattern with
    | some p => p.vlogLevel
    | none => settings.getMaxVlogLevel

/-- `LOG_IS_ON`. -/
def logIsOn (settings : LogSettings) (severity : Int) : Bool := severity ≥ settings.minLogLevel

/-- `VLOG_IS_ON` in a file. -/
def vlogIsOn (settings : LogSettings) (file : Text) (verboseLevel : Int) : Bool :=
  verboseLevel ≤ settings.getVlogLevel file

/-- What `InitLogging` reads of the command line. -/
def initLogging (commandLine : CommandLine) (settings : LogSettings) : LogSettings :=
  if commandLine.hasSwitch "v".toList || commandLine.hasSwitch "vmodule".toList then
    newVlogInfo (commandLine.getSwitchValueASCII "v".toList)
      (commandLine.getSwitchValueASCII "vmodule".toList) settings
  else settings

end LogSettings

/-! ## The environment -/

def kPluginType : Text := "psychPlugin".toList

/-- The command line of `env_t`; `trDebug` is what `TR_DEBUG` holds. -/
def environmentLine (trDebug : Option Text) : CommandLine :=
  let commandLine := match trDebug with
    | some buffer => kPluginType ++ ' ' :: cStr buffer
    | none => kPluginType
  (CommandLine.initFromArgv [] {}).parseFromString commandLine

def environmentSettings (trDebug : Option Text) : LogSettings :=
  LogSettings.initLogging (environmentLine trDebug) {}

/-- What the plugin logs from `file` under an environment. -/
def Platform.logging (platform : Platform) (trDebug : Option Text) (file : Text) : Platform :=
  let settings := environmentSettings trDebug
  { platform with logInfo := settings.logIsOn 0, vlog4 := settings.vlogIsOn file 4 }

/-! ## What is meant -/

/-- A pattern with its level. -/
structure VlogRule where
  pattern : Text
  level : Text
  pattern_plain : ∀ c ∈ pattern, isSpace c = false ∧ c ≠ '\x00' ∧ c ≠ ',' ∧ c ≠ '='
  level_plain : ∀ c ∈ level, isSpace c = false ∧ c ≠ '\x00' ∧ c ≠ ','
  level_start : level.head? ≠ some '='

/-- A rule covers the files whose name has the form of its pattern: with a slash in it the whole name,
else the name of the module. -/
def VlogRule.Covers (rule : VlogRule) (file : Text) : Prop :=
  (if rule.pattern.any isSlash then file else getModule file) ∈ patternLanguage rule.pattern

instance (rule : VlogRule) (file : Text) : Decidable (rule.Covers file) :=
  decidable_of_iff _ (matchWithin_iff (Nat.lt_succ_self _) _)

structure VlogSettings where
  level : Option Text
  rules : List VlogRule
  level_plain : ∀ l ∈ level, ∀ c ∈ l, isSpace c = false ∧ c ≠ '\x00'
  level_min : longMin < atoi (level.getD [])

/-- The level of a file: the one of the first rule that covers it, else the one of the settings. -/
def VlogSettings.verbosity (settings : VlogSettings) (file : Text) : Int :=
  match settings.rules.find? fun rule => rule.Covers file with
  | some rule => atoi rule.level
  | none => atoi (settings.level.getD [])

def VlogRule.text (rule : VlogRule) : Text := rule.pattern ++ '=' :: rule.level

/-- The settings as switches: their names and values. -/
def VlogSettings.entries (settings : VlogSettings) : List (Text × Text) :=
  (settings.level.map fun l => ("v".toList, l)).toList ++
    if settings.rules.isEmpty then []
    else [("vmodule".toList, [','].intercalate (settings.rules.map VlogRule.text))]

def VlogSettings.words (settings : VlogSettings) : List Text :=
  settings.entries.map fun (name, value) => "--".toList ++ (name ++ '=' :: value)

/-- Other words of the environment. -/
structure Unrelated (word : Text) : Prop where
  plain : ∀ c ∈ word, isSpace c = false ∧ c ≠ '\x00'
  parsed : word ≠ kSwitchTerminator
  other : ∀ entry ∈ switchEntry word, entry.1 ≠ "v".toList ∧ entry.1 ≠ "vmodule".toList

def VlogSettings.environment (settings : VlogSettings) (before after : List Text) : Text :=
  [' '].intercalate (before ++ settings.words ++ after)

/-! ## The rules -/

/-- What the constructor of `VlogInfo` makes of a rule. -/
def VlogRule.compiled (rule : VlogRule) : VmodulePattern :=
  { vmodulePattern rule.pattern with vlogLevel := atoi rule.level }

theorem VlogRule.match_compiled (rule : VlogRule) (file : Text) :
    matchVlogPattern (rule.compiled.target file) rule.compiled.pattern =
      decide (rule.Covers file) := by
  have htarget : rule.compiled.target file =
      if rule.pattern.any isSlash then file else getModule file := by
    unfold VmodulePattern.target compiled vmodulePattern
    cases rule.pattern.any isSlash <;> rfl
  rw [htarget, Bool.eq_iff_iff, decide_eq_true_iff]
  exact matchWithin_iff (Nat.lt_succ_self _) _

theorem VlogRule.splitStringIntoKeyValues_text (rule : VlogRule) :
    (splitStringIntoKeyValues rule.text '=').2.1 = rule.pattern ∧
      (splitStringIntoKeyValues rule.text '=').2.2.head?.getD [] = rule.level := by
  have hall : ∀ c ∈ rule.pattern, decide (c ≠ '=') = true := by
    intro c hc
    exact decide_eq_true (rule.pattern_plain c hc).2.2.2
  have hkey : rule.text.takeWhile (· ≠ '=') = rule.pattern := by
    rw [text, List.takeWhile_append_of_pos hall, List.takeWhile_cons_of_neg (by simp),
      List.append_nil]
  have hvalues : (rule.text.dropWhile (· ≠ '=')).dropWhile (· = '=') = rule.level := by
    rw [text, List.dropWhile_append_of_pos hall, List.dropWhile_cons_of_neg (by simp),
      List.dropWhile_cons_of_pos (by simp)]
    have hstart := rule.level_start
    cases hlevel : rule.level with
    | nil => rfl
    | cons c rest =>
      rw [hlevel, List.head?_cons] at hstart
      exact List.dropWhile_cons_of_neg (by simpa using hstart)
  have hmem : '=' ∈ rule.text := List.mem_append_right _ List.mem_cons_self
  rw [splitStringIntoKeyValues, if_pos hmem, hkey, hvalues]
  cases hlevel : rule.level with
  | nil => exact ⟨rfl, rfl⟩
  | cons c rest => exact ⟨rfl, rfl⟩

theorem VlogRule.plain_text (rule : VlogRule) :
    ∀ c ∈ rule.text, isSpace c = false ∧ c ≠ '\x00' ∧ c ≠ ',' := by
  intro c hc
  rcases List.mem_append.mp hc with h | h
  · exact ⟨(rule.pattern_plain c h).1, (rule.pattern_plain c h).2.1, (rule.pattern_plain c h).2.2.1⟩
  · rcases List.mem_cons.mp h with rfl | h
    · decide
    · exact rule.level_plain c h

/-- The rules come back from the value of the switch. -/
theorem splitStringIntoKeyValuePairs_rules (rules : List VlogRule) :
    (splitStringIntoKeyValuePairs ([','].intercalate (rules.map VlogRule.text)) '=' ',').2 =
      rules.map fun rule => (rule.pattern, rule.level) := by
  have hpairs : (splitString ([','].intercalate (rules.map VlogRule.text)) ',').filter
      (!·.isEmpty) = rules.map VlogRule.text := by
    cases rules with
    | nil => rfl
    | cons rule rules =>
      have hsplit := @splitString_intercalate ',' ((rule :: rules).map VlogRule.text) [] (by simp)
        (by
          intro cell hcell hmem
          obtain ⟨r, _, rfl⟩ := List.mem_map.mp hcell
          exact (r.plain_text ',' hmem).2.2 rfl)
        (by
          intro cell hcell
          obtain ⟨r, _, rfl⟩ := List.mem_map.mp hcell
          exact IsWord.trimmed fun c hc => (r.plain_text c hc).1)
        (by simp)
      rw [List.append_nil] at hsplit
      rw [hsplit, List.filter_eq_self]
      intro cell hcell
      obtain ⟨r, _, rfl⟩ := List.mem_map.mp hcell
      simp [VlogRule.text]
  rw [splitStringIntoKeyValuePairs]
  dsimp only
  rw [hpairs, List.map_map, List.map_map]
  apply List.map_congr_left
  intro rule _
  exact Prod.ext rule.splitStringIntoKeyValues_text.1 rule.splitStringIntoKeyValues_text.2

/-! ## The switches of an environment -/

theorem VlogSettings.mem_entries {settings : VlogSettings} {name value : Text}
    (h : (name, value) ∈ settings.entries) : (name = "v".toList ∨ name = "vmodule".toList) ∧
      ∀ c ∈ value, isSpace c = false ∧ c ≠ '\x00' := by
  rcases List.mem_append.mp h with hv | hvmodule
  · obtain ⟨l, hl, heq⟩ := Option.map_eq_some_iff.mp (Option.mem_toList.mp hv)
    obtain ⟨rfl, rfl⟩ := Prod.mk.inj heq
    exact ⟨Or.inl rfl, settings.level_plain l hl⟩
  · split at hvmodule
    · cases hvmodule
    · cases List.mem_singleton.mp hvmodule
      refine ⟨Or.inr rfl, ?_⟩
      intro c hc
      rcases mem_intercalate hc with rfl | ⟨cell, hcell, hc⟩
      · decide
      · obtain ⟨rule, _, rfl⟩ := List.mem_map.mp hcell
        exact ⟨(rule.plain_text c hc).1, (rule.plain_text c hc).2.1⟩

theorem VlogSettings.mem_words {settings : VlogSettings} {word : Text}
    (h : word ∈ settings.words) : word ≠ kSwitchTerminator ∧
      ∀ c ∈ word, isSpace c = false ∧ c ≠ '\x00' := by
  obtain ⟨⟨name, value⟩, hentry, rfl⟩ := List.mem_map.mp h
  obtain ⟨hname, hvalue⟩ := VlogSettings.mem_entries hentry
  have hdash : ∀ c ∈ "--".toList, isSpace c = false ∧ c ≠ '\x00' :=
    List.all_iff_forall_prop.mp (by decide)
  have hplain : ∀ c ∈ name, isSpace c = false ∧ c ≠ '\x00' := by
    rcases hname with rfl | rfl
    · exact List.all_iff_forall_prop.mp (by decide)
    · exact List.all_iff_forall_prop.mp (by decide)
  constructor
  · intro heq
    have hrest : name ++ '=' :: value = [] := @List.append_cancel_left _ "--".toList _ _ heq
    cases (List.append_eq_nil_iff.mp hrest).2
  · intro c hc
    rcases List.mem_append.mp hc with hc | hc
    · exact hdash c hc
    · rcases List.mem_append.mp hc with hc | hc
      · exact hplain c hc
      · rcases List.mem_cons.mp hc with rfl | hc
        · decide
        · exact hvalue c hc

theorem VlogSettings.switchEntry_words (settings : VlogSettings) :
    settings.words.filterMap switchEntry = settings.entries := by
  unfold words
  rw [List.filterMap_map, List.filterMap_eq_map_iff_forall_eq_some.mpr, List.map_id]
  rintro ⟨name, value⟩ hentry
  apply switchEntry_of_eq
  rcases (VlogSettings.mem_entries hentry).1 with rfl | rfl
  · decide
  · decide

theorem environmentLine_switches {words : List Text}
    (hwords : ∀ word ∈ words, ∀ c ∈ word, isSpace c = false ∧ c ≠ '\x00') :
    (environmentLine (some ([' '].intercalate words))).switches =
      OrderedMap.lasts (switchesOf words) := by
  have hprogram : IsWord kPluginType := List.all_iff_forall_prop.mp (by decide)
  have hnul : '\x00' ∉ [' '].intercalate words := by
    intro hmem
    rcases mem_intercalate hmem with h | ⟨word, hword, h⟩
    · exact absurd h (by decide)
    · exact (hwords word hword _ h).2 rfl
  have hparse := fun words hwords => @parseFromString_switches _ words hprogram (by decide) hwords
    (CommandLine.initFromArgv [] {})
  rw [environmentLine, cStr_of_not_mem hnul]
  cases words with
  | nil => exact hparse [[]] (by simp [IsWord])
  | cons word words => exact hparse (word :: words) fun w hw c hc => (hwords w hw c hc).1

/-- The settings are what the environment says of the two switches. -/
theorem VlogSettings.lookup_environment {settings : VlogSettings} {before after : List Text}
    (hbefore : ∀ word ∈ before, Unrelated word) (hafter : ∀ word ∈ after, Unrelated word)
    {name : Text} (hname : name = "v".toList ∨ name = "vmodule".toList) :
    (environmentLine (some (settings.environment before after))).switches.lookup name =
      settings.entries.lookup name := by
  have hothers : ∀ {others : List Text}, (∀ word ∈ others, Unrelated word) →
      (others.filterMap switchEntry).reverse.lookup name = none := by
    intro others hothers
    rw [List.lookup_eq_none_iff]
    intro entry hentry
    obtain ⟨word, hword, heq⟩ := List.mem_filterMap.mp (List.mem_reverse.mp hentry)
    have hother := (hothers word hword).other entry heq
    rcases hname with rfl | rfl
    · simpa using hother.1.symm
    · simpa using hother.2.symm
  have hparsed : ∀ word ∈ before ++ settings.words ++ after, word ≠ kSwitchTerminator ∧
      ∀ c ∈ word, isSpace c = false ∧ c ≠ '\x00' := by
    intro word hword
    rw [List.mem_append, List.mem_append] at hword
    rcases hword with (h | h) | h
    · exact ⟨(hbefore word h).parsed, (hbefore word h).plain⟩
    · exact VlogSettings.mem_words h
    · exact ⟨(hafter word h).parsed, (hafter word h).plain⟩
  have hall : (before ++ settings.words ++ after).takeWhile (· != kSwitchTerminator) =
      before ++ settings.words ++ after := by
    apply List.takeWhile_eq_self_iff.mpr
    intro word hword
    simpa using (hparsed word hword).1
  have hreverse : settings.entries.reverse.lookup name = settings.entries.lookup name := by
    unfold entries
    cases settings.level with
    | none => split <;> rfl
    | some l =>
      split
      · rfl
      · rcases hname with rfl | rfl <;> rfl
  rw [environment, environmentLine_switches fun word hword => (hparsed word hword).2,
    OrderedMap.lookup_lasts, switchesOf, hall, List.filterMap_append, List.filterMap_append,
    settings.switchEntry_words, List.reverse_append, List.reverse_append, List.lookup_append,
    List.lookup_append, hothers hbefore, hothers hafter, Option.none_or, Option.or_none, hreverse]

/-! ## The levels -/

theorem atoi_le (s : Text) : atoi s ≤ longMax := atol_le s

theorem atoi_nil : atoi [] = 0 := by decide

theorem toLong_of_mem {n : Int} (hmin : longMin ≤ n) (hmax : n ≤ longMax) : toLong n = n := by
  unfold longMin at hmin
  unfold longMax at hmax
  exact Int.bmod_eq_of_le (by omega) (by omega)

theorem VlogSettings.lookup_entries (settings : VlogSettings) :
    settings.entries.lookup "v".toList = settings.level ∧
      (settings.entries.lookup "vmodule".toList).getD [] =
        [','].intercalate (settings.rules.map VlogRule.text) ∧
      ((settings.entries.lookup "v".toList).isSome ||
        (settings.entries.lookup "vmodule".toList).isSome) = !settings.entries.isEmpty := by
  unfold entries
  cases hrules : settings.rules with
  | nil => cases settings.level <;> exact ⟨rfl, rfl, rfl⟩
  | cons rule rules => cases settings.level <;> exact ⟨rfl, rfl, rfl⟩

theorem VlogSettings.environmentSettings_eq {settings : VlogSettings} {before after : List Text}
    (hbefore : ∀ word ∈ before, Unrelated word) (hafter : ∀ word ∈ after, Unrelated word) :
    environmentSettings (some (settings.environment before after)) =
      { minLogLevel := -atoi (settings.level.getD [])
        vlogInfo := if settings.entries.isEmpty then none
          else some (settings.rules.map VlogRule.compiled) } := by
  have hlookup := @lookup_environment settings before after hbefore hafter
  obtain ⟨hv, hvmodule, hsome⟩ := settings.lookup_entries
  rw [environmentSettings, LogSettings.initLogging, CommandLine.hasSwitch, CommandLine.hasSwitch,
    CommandLine.getSwitchValueASCII, CommandLine.getSwitchValueASCII, hlookup (Or.inl rfl),
    hlookup (Or.inr rfl), hsome, hv, hvmodule]
  cases hentries : settings.entries.isEmpty with
  | true =>
    have hlevel : settings.level = none := by
      rw [← hv, List.isEmpty_iff.mp hentries]
      rfl
    rw [hlevel]
    rfl
  | false =>
    rw [Bool.not_false, if_pos rfl, newVlogInfo, splitStringIntoKeyValuePairs_rules, List.map_map]
    have hmin : (if (settings.level.getD []).isEmpty then (0 : Int)
        else toLong (-atoi (settings.level.getD []))) = -atoi (settings.level.getD []) := by
      split
      next hempty => rw [List.isEmpty_iff.mp hempty, atoi_nil, Int.neg_zero]
      next =>
        have hlevel := settings.level_min
        have hle := atoi_le (settings.level.getD [])
        unfold longMin at hlevel
        unfold longMax at hle
        exact toLong_of_mem (by unfold longMin; omega) (by unfold longMax; omega)
    exact congrArg₂ LogSettings.mk hmin rfl

theorem VlogSettings.of_entries_nil {settings : VlogSettings}
    (h : settings.entries.isEmpty = true) : settings.level = none ∧ settings.rules = [] := by
  obtain ⟨hv, hvmodule⟩ := List.append_eq_nil_iff.mp (List.isEmpty_iff.mp h)
  constructor
  · exact Option.map_eq_none_iff.mp (Option.toList_eq_nil_iff.mp hv)
  · split at hvmodule
    next hempty => exact List.isEmpty_iff.mp hempty
    next => cases hvmodule

theorem VlogSettings.getVlogLevel_environment {settings : VlogSettings} {before after : List Text}
    (hbefore : ∀ word ∈ before, Unrelated word) (hafter : ∀ word ∈ after, Unrelated word)
    (file : Text) :
    (environmentSettings (some (settings.environment before after))).getVlogLevel file =
      settings.verbosity file := by
  rw [environmentSettings_eq hbefore hafter, LogSettings.getVlogLevel, verbosity]
  cases hentries : settings.entries.isEmpty with
  | true =>
    obtain ⟨hlevel, hrules⟩ := of_entries_nil hentries
    rw [hlevel, hrules]
    rfl
  | false =>
    have hcovers : ((fun p : VmodulePattern => matchVlogPattern (p.target file) p.pattern) ∘
        VlogRule.compiled) = fun rule => decide (rule.Covers file) :=
      funext fun rule => rule.match_compiled file
    rw [if_neg Bool.false_ne_true]
    dsimp only
    rw [List.find?_map, hcovers]
    cases settings.rules.find? fun rule => decide (rule.Covers file) with
    | some rule => rfl
    | none =>
      have hmin := settings.level_min
      have hmax := atoi_le (settings.level.getD [])
      rw [Option.map_none]
      dsimp only
      rw [LogSettings.getMaxVlogLevel, Int.neg_neg]
      exact toLong_of_mem (Int.le_of_lt hmin) hmax

/-- Levels for one module and for the files of one directory. -/
def sampleVlogSettings : VlogSettings where
  level := some "1".toList
  rules :=
    [⟨"psych".toList, "4".toList, List.all_iff_forall_prop.mp (by decide),
        List.all_iff_forall_prop.mp (by decide), by decide⟩,
      ⟨"*/chromium/*".toList, "2".toList, List.all_iff_forall_prop.mp (by decide),
        List.all_iff_forall_prop.mp (by decide), by decide⟩]
  level_plain := by
    rintro l ⟨⟩
    exact List.all_iff_forall_prop.mp (by decide)
  level_min := by decide

example : (["src/psych.cc", "src\\chromium\\vlog.cc", "src/rfa.cc"].map fun file =>
    sampleVlogSettings.verbosity file.toList) = [4, 2, 1] := by decide

end Psych
