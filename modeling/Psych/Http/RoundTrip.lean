import Psych.Http.Scan

/-!
# Writing a feed and reading it back

A `FeedFile` is what a publisher of tables has to say: a version, two times, the columns and the
rows, in texts that the format can carry. `FeedFile.render` writes it as `OnHttpResponse` expects
it, and `feed_read_back_iff` says what `OnHttpResponse` makes of the result, for either line end.
-/

namespace Psych

/-! ## Times -/

/-- The last decimal digit of a number. -/
def digit (n : Nat) : Char := Char.ofNat (48 + n % 10)

/-- A date and a time of day of the calendar. -/
structure CalendarTime where
  year : Nat
  month : Nat
  day : Nat
  hour : Nat
  min : Nat
  sec : Nat
  year_range : 1400 ≤ year ∧ year ≤ 9999
  month_range : 1 ≤ month ∧ month ≤ 12
  day_range : 1 ≤ day ∧ day ≤ endOfMonthDay year month
  hour_lt : hour < 24
  min_lt : min < 60
  sec_lt : sec < 60

/-- `YYYY-MM-DD HH:MM:SS`. -/
def CalendarTime.text (t : CalendarTime) : Text :=
  [digit (t.year / 1000), digit (t.year / 100), digit (t.year / 10), digit t.year, '-',
    digit (t.month / 10), digit t.month, '-', digit (t.day / 10), digit t.day, ' ',
    digit (t.hour / 10), digit t.hour, ':', digit (t.min / 10), digit t.min, ':',
    digit (t.sec / 10), digit t.sec]

/-- The ticks since the Unix epoch. -/
def CalendarTime.ticks (t : CalendarTime) : Int :=
  daysFromCivil t.year t.month t.day * ticksPerDay +
    (t.hour * 3600 + t.min * 60 + t.sec) * ticksPerSecond

theorem digit_isDigit (n : Nat) : (digit n).isDigit = true := by
  have hall : ∀ i < 10, (Char.ofNat (48 + i)).isDigit = true := by decide
  exact hall (n % 10) (Nat.mod_lt n (by omega))

theorem digit_ne (n : Nat) {c : Char} (hc : c.isDigit = false) : digit n ≠ c := by
  intro h
  have := digit_isDigit n
  rw [h, hc] at this
  cases this

@[simp] theorem CalendarTime.length_text (t : CalendarTime) : t.text.length = dateLen := rfl

/-- A text of a time has digits, hyphens, colons and one space. -/
theorem CalendarTime.not_mem_text (t : CalendarTime) {c : Char} (hdigit : c.isDigit = false)
    (hc : c ≠ '-' ∧ c ≠ ' ' ∧ c ≠ ':') : c ∉ t.text := by
  have hne := fun n => (digit_ne n hdigit).symm
  simp only [CalendarTime.text, List.mem_cons, List.not_mem_nil, or_false, not_or]
  simp only [hne, hc, not_false_eq_true, and_self]

theorem readDigits_digit (acc n : Nat) (s : Text) :
    readDigits acc (digit n :: s) = readDigits (10 * acc + n % 10) s := by
  have hvalue : (digit n).toNat - '0'.toNat = n % 10 := by
    have hall : ∀ i < 10, (Char.ofNat (48 + i)).toNat - '0'.toNat = i := by decide
    exact hall (n % 10) (Nat.mod_lt n (by omega))
  rw [readDigits, if_pos (digit_isDigit n), hvalue]

theorem readDigits_two {n : Nat} (h : n < 100) :
    readDigits 0 [digit (n / 10), digit n] = n := by
  rw [readDigits_digit, readDigits_digit, readDigits]
  omega

/-- Boost's calendar reads the text of a time. -/
theorem boostTimeFromString_text (t : CalendarTime) :
    boostTimeFromString t.text = some (some t.ticks) := by
  have hform : t.text.length = 19 ∧ t.text.map (fun c => if c.isDigit then '0' else c) =
      "0000-00-00 00:00:00".toList := by
    refine ⟨rfl, ?_⟩
    simp [CalendarTime.text, digit_isDigit]
  have hyear : digitsAt t.text 0 4 = t.year := by
    have := t.year_range
    show readDigits 0 [digit (t.year / 1000), digit (t.year / 100), digit (t.year / 10),
      digit t.year] = t.year
    rw [readDigits_digit, readDigits_digit, readDigits_digit, readDigits_digit, readDigits]
    omega
  have hmonth : digitsAt t.text 5 2 = t.month :=
    readDigits_two (by have := t.month_range; omega)
  have hday : digitsAt t.text 8 2 = t.day := by
    have hbound : endOfMonthDay t.year t.month ≤ 31 := by
      unfold endOfMonthDay
      split
      · split <;> omega
      all_goals omega
    exact readDigits_two (by have := t.day_range; omega)
  have hhour : digitsAt t.text 11 2 = t.hour :=
    readDigits_two (by have := t.hour_lt; omega)
  have hmin : digitsAt t.text 14 2 = t.min :=
    readDigits_two (by have := t.min_lt; omega)
  have hsec : digitsAt t.text 17 2 = t.sec :=
    readDigits_two (by have := t.sec_lt; omega)
  have hdate : boostDate t.year t.month t.day = some (daysFromCivil t.year t.month t.day) :=
    if_pos ⟨t.year_range.1, t.year_range.2, t.month_range.1, t.month_range.2, t.day_range.1,
      t.day_range.2⟩
  unfold boostTimeFromString
  rw [if_pos hform, hyear, hmonth, hday, hhour, hmin, hsec, hdate]
  rfl

/-! ## Feeds -/

/-- A text that a cell of the table can carry. -/
def plainCell (s : Text) : Bool :=
  s.all (fun c => c != '\t' && c != '\n' && c != '\r') && trimmed s

/-- A table in texts that the format can carry. -/
structure FeedFile where
  version : Text
  openTime : CalendarTime
  closeTime : CalendarTime
  columns : List Text
  /-- The name and the value texts of each row. -/
  rows : List (Text × List Text)
  version_ne : version ≠ []
  version_plain : ∀ c ∈ version, c ≠ ' ' ∧ c ≠ '\t' ∧ c ≠ '\n'
  two_columns : 2 ≤ columns.length
  columns_plain : ∀ name ∈ columns, plainCell name = true
  rows_shape : ∀ row ∈ rows, row.2.length + 1 = columns.length
  rows_plain : ∀ row ∈ rows, ∀ cell ∈ row.1 :: row.2, plainCell cell = true
  rows_open : ∀ row ∈ rows, row.1.head? ≠ some '#'

inductive LineEnd where
  | lf
  | crlf
deriving DecidableEq

/-- What stands between the characters of a line and the line feed. -/
def LineEnd.pad : LineEnd → Text
  | .lf => []
  | .crlf => ['\r']

/-- `# MarketPsych Engine Version <v> | <open> UTC - <close> UTC`. -/
def FeedFile.timestampText (feed : FeedFile) : Text :=
  "# MarketPsych Engine Version ".toList ++ feed.version ++ " | ".toList ++ feed.openTime.text ++
    " UTC - ".toList ++ feed.closeTime.text ++ " UTC".toList

def tabbed (cells : List Text) : Text := ['\t'].intercalate cells

/-- The lines of a feed without their ends. -/
def FeedFile.lines (feed : FeedFile) : List Text :=
  feed.timestampText :: tabbed feed.columns ::
    (feed.rows.map (fun row => tabbed (row.1 :: row.2)) ++ [['#']])

def FeedFile.render (feed : FeedFile) (lineEnd : LineEnd) : Text :=
  feed.lines.flatMap fun line => line ++ lineEnd.pad ++ ['\n']

/-- The table that holds what the feed says. -/
def FeedFile.table (platform : Platform) (feed : FeedFile) : Table where
  engineVersion := feed.version
  openTime := some feed.openTime.ticks
  closeTime := some feed.closeTime.ticks
  columns := feed.columns
  rows := feed.rows.zipIdx.map fun row => (row.1.1, readValues platform row.2 1 row.1.2)

/-! ## The timestamp line -/

theorem CalendarTime.findAt_hyphen (t : CalendarTime) (i : Nat) (rest : Text) :
    findAt "- ".toList i (t.text ++ rest) = findAt "- ".toList (i + dateLen) rest := by
  have hhyphen : ∀ n, ('-' == digit n) = false := by
    intro n
    simpa using (digit_ne n (c := '-') rfl).symm
  have hspace : ∀ n, (' ' == digit n) = false := by
    intro n
    simpa using (digit_ne n (c := ' ') rfl).symm
  show findAt ['-', ' '] i (t.text ++ rest) = findAt ['-', ' '] (i + 19) rest
  simp [CalendarTime.text, findAt, List.isPrefixOf, hhyphen, hspace]

/-- The version and the times are read from where they were written. -/
theorem FeedFile.timestampFields_text (feed : FeedFile) (pad : Text) :
    timestampFields (feed.timestampText ++ pad) =
      some (feed.version, feed.openTime.text, feed.closeTime.text) := by
  have hversion : 0 < feed.version.length := List.length_pos_iff.mpr feed.version_ne
  have hlabel : "# MarketPsych Engine Version ".toList.length = prefixLen := by decide
  have hopenLen := feed.openTime.length_text
  have hcloseLen := feed.closeTime.length_text
  have hspaceless : ' ' ∉ feed.version := fun h => (feed.version_plain _ h).1 rfl
  generalize htoken : feed.timestampText ++ pad = token
  -- the text from each of the places where the searches start or end
  have htext : token.drop prefixLen = feed.version ++ (" ".toList ++ ("| ".toList ++
      (feed.openTime.text ++ (" UTC ".toList ++ ("- ".toList ++
        (feed.closeTime.text ++ (" UTC".toList ++ pad))))))) := by
    have hbar : " | ".toList = " ".toList ++ "| ".toList := by decide
    have hutc : " UTC - ".toList = " UTC ".toList ++ "- ".toList := by decide
    rw [← htoken]
    unfold FeedFile.timestampText
    rw [hbar, hutc]
    simp only [List.append_assoc]
    rw [List.drop_left' hlabel]
  have hspace := drop_of_append htext rfl
  have hpipe := drop_of_append (k := 1) hspace rfl
  have hopen := drop_of_append (k := 2) hpipe rfl
  have hutc := drop_of_append hopen hopenLen
  have hhyphen := drop_of_append (k := 5) hutc rfl
  have hclose := drop_of_append (k := 2) hhyphen rfl
  have hlength : timestampLine.length ≤ token.length := by
    have hline : timestampLine.length = prefixLen + dateLen + dateLen + 15 := by decide
    have hbar : " | ".toList.length = 3 := by decide
    have hutc : " UTC - ".toList.length = 7 := by decide
    have hend : " UTC".toList.length = 4 := by decide
    rw [← htoken, hline]
    unfold FeedFile.timestampText
    simp only [List.length_append, CalendarTime.length_text, hlabel, hbar,
      hutc, hend]
    omega
  -- the three searches
  have hfindSpace : find token " ".toList prefixLen = some (prefixLen + feed.version.length) :=
    find_after htext hspaceless
  have hfindPipe : find token "| ".toList (prefixLen + feed.version.length) =
      some (prefixLen + feed.version.length + 1) :=
    find_after hspace (by decide)
  have hfindHyphen : find token "- ".toList (prefixLen + feed.version.length + 1) =
      some (prefixLen + feed.version.length + 1 + 2 + dateLen + 5) := by
    rw [find_of_drop hpipe (by simp)]
    apply (findAt_append (s := ['|', ' ']) (by decide) _ _).trans
    apply (feed.openTime.findAt_hyphen _ _).trans
    apply (findAt_append (s := [' ', 'U', 'T', 'C', ' ']) (by decide) _ _).trans
    exact findAt_self '-' [' '] _ _
  unfold timestampFields
  rw [if_neg (by omega), hfindSpace]
  dsimp only
  rw [hfindPipe]
  dsimp only
  rw [hfindHyphen]
  dsimp only
  rw [htext, hopen, hclose, Nat.add_sub_cancel_left, List.take_left,
    List.take_left' hopenLen, List.take_left' hcloseLen]

/-! ## The lines of the table -/

theorem tabbed_cons_cons (cell next : Text) (cells : List Text) :
    tabbed (cell :: next :: cells) = cell ++ '\t' :: tabbed (next :: cells) := by
  unfold tabbed
  rw [List.intercalate_cons_cons, List.append_assoc, List.singleton_append]

theorem mem_tabbed {cells : List Text} {c : Char} (h : c ∈ tabbed cells) :
    c = '\t' ∨ ∃ cell ∈ cells, c ∈ cell := by
  induction cells with
  | nil => cases h
  | cons cell cells ih =>
    cases cells with
    | nil =>
      unfold tabbed at h
      rw [List.intercalate_singleton] at h
      exact Or.inr ⟨cell, List.mem_cons_self, h⟩
    | cons next cells =>
      rw [tabbed_cons_cons, List.mem_append, List.mem_cons] at h
      rcases h with h | h | h
      · exact Or.inr ⟨cell, List.mem_cons_self, h⟩
      · exact Or.inl h
      · rcases ih h with h | ⟨l, hl, h⟩
        · exact Or.inl h
        · exact Or.inr ⟨l, List.mem_cons_of_mem _ hl, h⟩

theorem tab_mem_tabbed {cells : List Text} (h : 2 ≤ cells.length) : '\t' ∈ tabbed cells := by
  match cells, h with
  | cell :: next :: cells, _ =>
    rw [tabbed_cons_cons]
    simp

theorem plainCell_spec {s : Text} (h : plainCell s = true) :
    '\t' ∉ s ∧ '\n' ∉ s ∧ trimmed s = true := by
  simp only [plainCell, Bool.and_eq_true, List.all_eq_true, bne_iff_ne] at h
  exact ⟨fun hs => (h.1 _ hs).1.1 rfl, fun hs => (h.1 _ hs).1.2 rfl, h.2⟩

theorem LineEnd.mem_pad {lineEnd : LineEnd} {c : Char} (h : c ∈ lineEnd.pad) : c = '\r' := by
  cases lineEnd with
  | lf => cases h
  | crlf => exact List.mem_singleton.mp h

/-- The cells of a line are read as they were written, with either line end. -/
theorem splitString_tabbed {cells : List Text} (hne : cells ≠ [])
    (hplain : ∀ cell ∈ cells, plainCell cell = true) (lineEnd : LineEnd) :
    splitString (tabbed cells ++ lineEnd.pad) '\t' = cells := by
  apply splitString_intercalate hne
  · intro cell hcell
    exact (plainCell_spec (hplain cell hcell)).1
  · intro cell hcell
    exact (plainCell_spec (hplain cell hcell)).2.2
  · intro c hc
    rw [LineEnd.mem_pad hc]
    decide

theorem FeedFile.columns_ne (feed : FeedFile) : feed.columns ≠ [] := by
  intro h
  have := feed.two_columns
  rw [h] at this
  simp at this

theorem FeedFile.row_length (feed : FeedFile) {row : Text × List Text} (h : row ∈ feed.rows) :
    2 ≤ (row.1 :: row.2).length := by
  rw [List.length_cons, feed.rows_shape row h]
  exact feed.two_columns

theorem FeedFile.newline_not_mem_timestampText (feed : FeedFile) : '\n' ∉ feed.timestampText := by
  have hopen := feed.openTime.not_mem_text (c := '\n') rfl (by decide)
  have hclose := feed.closeTime.not_mem_text (c := '\n') rfl (by decide)
  have hversion : '\n' ∉ feed.version := fun h => (feed.version_plain _ h).2.2 rfl
  unfold FeedFile.timestampText
  simp only [List.mem_append, hopen, hclose, hversion, or_false, not_or]
  decide

/-- Every line has a character, and none has a line feed. -/
theorem FeedFile.mem_lines (feed : FeedFile) {line : Text} (h : line ∈ feed.lines) :
    line ≠ [] ∧ '\n' ∉ line := by
  have htab : ∀ cells : List Text, 2 ≤ cells.length → (∀ cell ∈ cells, plainCell cell = true) →
      tabbed cells ≠ [] ∧ '\n' ∉ tabbed cells := by
    intro cells hlen hplain
    refine ⟨List.ne_nil_of_mem (tab_mem_tabbed hlen), ?_⟩
    intro hmem
    rcases mem_tabbed hmem with h | ⟨cell, hcell, h⟩
    · cases h
    · exact (plainCell_spec (hplain cell hcell)).2.1 h
  unfold FeedFile.lines at h
  rcases List.mem_cons.mp h with rfl | h
  · refine ⟨?_, feed.newline_not_mem_timestampText⟩
    apply List.ne_nil_of_mem (a := '#')
    unfold FeedFile.timestampText
    simp only [List.append_assoc]
    exact List.mem_append_left _ (by decide)
  · rcases List.mem_cons.mp h with rfl | h
    · exact htab _ feed.two_columns feed.columns_plain
    · rcases List.mem_append.mp h with h | h
      · obtain ⟨row, hrow, rfl⟩ := List.mem_map.mp h
        exact htab _ (feed.row_length hrow) (feed.rows_plain row hrow)
      · rw [List.mem_singleton.mp h]
        decide

theorem FeedFile.tokens_render (feed : FeedFile) (lineEnd : LineEnd) :
    tokens "\n".toList (feed.render lineEnd) = feed.lines.map (· ++ lineEnd.pad) := by
  have hrender : feed.render lineEnd =
      (feed.lines.map (· ++ lineEnd.pad)).flatMap fun line => line ++ ['\n'] := by
    unfold FeedFile.render
    rw [List.flatMap_map]
  rw [hrender]
  apply tokens_flatMap (by decide)
  · intro line hline
    obtain ⟨l, hl, rfl⟩ := List.mem_map.mp hline
    simp [(feed.mem_lines hl).1]
  · intro line hline d hd hnewline
    obtain ⟨l, hl, rfl⟩ := List.mem_map.mp hline
    have hd' : d = '\n' := by simpa using hnewline
    subst hd'
    rcases List.mem_append.mp hd with h | h
    · exact (feed.mem_lines hl).2 h
    · exact absurd (LineEnd.mem_pad h) (by decide)

/-! ## The table -/

/-- The rows that were written are the rows that are read. -/
theorem FeedFile.tableRows_eq (feed : FeedFile) (platform : Platform) (lineEnd : LineEnd) :
    tableRows platform feed.columns.length 0
        ((feed.rows.map (fun row => tabbed (row.1 :: row.2)) ++ [['#']]).map (· ++ lineEnd.pad)) =
      (feed.table platform).rows := by
  have hstop : ∀ row ∈ feed.rows,
      (tabbed (row.1 :: row.2) ++ lineEnd.pad).head? ≠ some '#' := by
    intro row hrow
    obtain ⟨name, cells⟩ := row
    match cells, feed.row_length hrow with
    | cell :: cells, _ =>
      have hopen : name.head? ≠ some '#' := feed.rows_open _ hrow
      rw [tabbed_cons_cons]
      cases name with
      | nil => simp
      | cons c name => simpa using hopen
  have hcells : ∀ row ∈ feed.rows,
      rowCells feed.columns.length (tabbed (row.1 :: row.2) ++ lineEnd.pad) = some row := by
    intro row hrow
    unfold rowCells
    rw [splitString_tabbed (List.cons_ne_nil _ _) (feed.rows_plain row hrow)]
    exact if_pos (feed.rows_shape row hrow)
  have htake : (((feed.rows.map fun row => tabbed (row.1 :: row.2)) ++ [['#']]).map
      (· ++ lineEnd.pad)).takeWhile (fun line => line.head? != some '#') =
        feed.rows.map fun row => tabbed (row.1 :: row.2) ++ lineEnd.pad := by
    rw [List.map_append, List.map_map]
    rw [List.takeWhile_append_of_pos]
    · simp
    · intro line hline
      obtain ⟨row, hrow, rfl⟩ := List.mem_map.mp hline
      simpa using hstop row hrow
  have hfilter : ∀ rows : List (Text × List Text), (∀ row ∈ rows, row ∈ feed.rows) →
      (rows.map fun row => tabbed (row.1 :: row.2) ++ lineEnd.pad).filterMap
        (rowCells feed.columns.length) = rows := by
    intro rows hrows
    rw [List.filterMap_map]
    calc _ = rows.filterMap some := by
          apply List.filterMap_congr
          intro row hrow
          exact hcells row (hrows row hrow)
      _ = rows := List.filterMap_some
  unfold tableRows
  rw [htake, hfilter feed.rows fun row hrow => hrow]
  rfl

/-- Every row of the table has a value for each column but the first. -/
theorem FeedFile.table_shape (feed : FeedFile) (platform : Platform) {row : Text × List Value}
    (h : row ∈ (feed.table platform).rows) : row.2.length + 1 = feed.columns.length := by
  obtain ⟨⟨r, i⟩, hmem, rfl⟩ := List.mem_map.mp h
  rw [length_readValues]
  exact feed.rows_shape r (List.fst_mem_of_mem_zipIdx hmem)

theorem FeedFile.table_names (feed : FeedFile) (platform : Platform) :
    (feed.table platform).rows.map Prod.fst = feed.rows.map Prod.fst := by
  unfold FeedFile.table
  rw [List.map_map]
  calc _ = (feed.rows.zipIdx.map Prod.fst).map Prod.fst := by
        rw [List.map_map]
        rfl
    _ = feed.rows.map Prod.fst := by rw [List.zipIdx_map_fst]

/-! ## The response -/

/-- `time_from_string` is correct on the text of a time. -/
def Platform.readsTime (platform : Platform) (t : CalendarTime) : Prop :=
  platform.timeFromString t.text = some (some t.ticks)

theorem boostPlatform_readsTime (t : CalendarTime) : boostPlatform.readsTime t :=
  boostTimeFromString_text t

/-- A response of admissible size and file time that carries a feed. -/
structure CarriesFeed (config : Config) (transfer : Transfer) (connection : Connection)
    (feed : FeedFile) (lineEnd : LineEnd) : Prop where
  data : connection.data = feed.render lineEnd
  status : transfer.responseCode = 200
  contentType : ∃ contentType,
    transfer.contentType = some contentType ∧ textPlain.isPrefixOf contentType = true
  size : toSize (minimumResponseSize config) ≤ connection.data.length
  filetime : transfer.filetime = -1 ∨ panics config transfer connection = false

/-- `OnHttpResponse` returns true with what the feed says. -/
structure ReadsBack (platform : Platform) (feed : FeedFile)
    (response : Except Fault Bool × HttpState) : Prop where
  accepted : response.1 = .ok true
  version : response.2.table.engineVersion = feed.version
  openTime : response.2.table.openTime = some feed.openTime.ticks
  closeTime : response.2.table.closeTime = some feed.closeTime.ticks
  columns : response.2.table.columns = feed.columns
  names : response.2.table.rows.map Prod.fst = feed.rows.map Prod.fst
  lengths : ∀ row ∈ response.2.table.rows, row.2.length + 1 = feed.columns.length
  values : response.2.table.rows =
    feed.rows.zipIdx.map fun row => (row.1.1, readValues platform row.2 1 row.1.2)

/-- The `Timing` line is not logged, or each of its times can be rendered. -/
def timesRender (platform : Platform) (transfer : Transfer) (connection : Connection)
    (feed : FeedFile) : Prop :=
  platform.logInfo = true ∨ platform.vlog4 = true →
    ∀ t ∈ [connection.requestPtime, connection.httpdPtime,
      some (transfer.filetime * ticksPerSecond), some feed.openTime.ticks,
      some feed.closeTime.ticks], platform.prints t = true

theorem FeedFile.magic_render (feed : FeedFile) (lineEnd : LineEnd) :
    magic (feed.render lineEnd) = kPsychMagic := by
  have hstart : ∃ rest, feed.render lineEnd = '#' :: ' ' :: 'M' :: 'a' :: rest := by
    unfold FeedFile.render FeedFile.lines FeedFile.timestampText
    simp only [List.flatMap_cons, List.append_assoc]
    exact ⟨_, rfl⟩
  obtain ⟨rest, hstart⟩ := hstart
  rw [hstart]
  rfl

theorem CarriesFeed.reaches {config : Config} {transfer : Transfer} {connection : Connection}
    {feed : FeedFile} {lineEnd : LineEnd} (h : CarriesFeed config transfer connection feed lineEnd) :
    reachesTable config transfer connection := by
  obtain ⟨contentType, hct, htext⟩ := h.contentType
  refine ⟨h.status, ⟨contentType, hct, ?_⟩, h.filetime⟩
  have hmagic : magic connection.data = kPsychMagic := by
    rw [h.data]
    exact feed.magic_render lineEnd
  simp [admissible, htext, h.size, hmagic]

section Reading

variable {platform : Platform} {feed : FeedFile}
  (hopen : platform.readsTime feed.openTime) (hclose : platform.readsTime feed.closeTime)
  (lineEnd : LineEnd)

include hopen hclose

theorem FeedFile.lineTimes_text (pad : Text) :
    lineTimes platform (feed.timestampText ++ pad) =
      (some feed.openTime.ticks, some feed.closeTime.ticks) := by
  rw [lineTimes_of_fields (feed.timestampFields_text pad)]
  unfold parseTime
  rw [hopen, hclose]
  rfl

theorem FeedFile.accepted_render : tableAccepted platform (feed.render lineEnd) = true := by
  have hreads : readsTimestamp platform (feed.timestampText ++ lineEnd.pad) = true := by
    unfold readsTimestamp parseTime
    rw [feed.timestampFields_text]
    dsimp only
    rw [hopen, hclose]
    rfl
  have htab : '\t' ∈ tabbed feed.columns ++ lineEnd.pad :=
    List.mem_append_left _ (tab_mem_tabbed feed.two_columns)
  unfold tableAccepted
  rw [feed.tokens_render]
  unfold FeedFile.lines
  rw [List.map_cons, List.map_cons, linesAccepted, hreads, List.contains_iff_mem.mpr htab]
  rfl

theorem FeedFile.scannedTable_render (engineVersion : Text) :
    scannedTable platform (feed.render lineEnd) engineVersion = feed.table platform := by
  have hversion := lineVersion_of_fields (feed.timestampFields_text lineEnd.pad)
  have hcolumns := splitString_tabbed feed.columns_ne feed.columns_plain lineEnd
  rw [scannedTable_eq _ (feed.accepted_render hopen hclose lineEnd), feed.tokens_render]
  unfold FeedFile.lines
  rw [List.map_cons, List.map_cons, tableOf, hversion, feed.lineTimes_text hopen hclose]
  unfold columnNames
  dsimp only
  rw [hcolumns, List.drop_succ_cons, List.drop_zero, feed.tableRows_eq platform lineEnd]
  rfl

theorem FeedFile.rendered_render {transfer : Transfer} {connection : Connection}
    (hdata : connection.data = feed.render lineEnd) :
    rendered platform transfer connection = true ↔
      timesRender platform transfer connection feed := by
  have htimes : bodyTimes platform connection.data =
      (some feed.openTime.ticks, some feed.closeTime.ticks) := by
    unfold bodyTimes
    rw [hdata, feed.tokens_render]
    exact feed.lineTimes_text hopen hclose lineEnd.pad
  unfold rendered timesRender
  rw [htimes, Bool.or_eq_true, Bool.not_eq_true', List.all_eq_true]
  cases hlog : platform.logInfo <;> cases hvlog : platform.vlog4 <;> simp

end Reading

/-- A feed is read back unless one of the times that are only logged cannot be rendered. -/
theorem feed_read_back_iff {platform : Platform} {config : Config} {transfer : Transfer}
    {connection : Connection} {feed : FeedFile} {lineEnd : LineEnd}
    (h : CarriesFeed config transfer connection feed lineEnd)
    (hopen : platform.readsTime feed.openTime) (hclose : platform.readsTime feed.closeTime)
    (stats : Stats) (engineVersion : Text) :
    ReadsBack platform feed (respond platform config transfer connection stats engineVersion) ↔
      timesRender platform transfer connection feed := by
  have haccepts := respond_accepts_iff platform config transfer connection stats engineVersion
  have hrendered : rendered platform transfer connection = true ↔
      timesRender platform transfer connection feed :=
    feed.rendered_render hopen hclose lineEnd h.data
  have haccepted := feed.accepted_render hopen hclose lineEnd
  rw [← h.data] at haccepted
  constructor
  · intro hback
    exact hrendered.mp (haccepts.mp hback.accepted).2.2
  · intro htimes
    have hok := haccepts.mpr ⟨h.reaches, haccepted, hrendered.mpr htimes⟩
    have htable := (respond_table hok).1
    rw [h.data, feed.scannedTable_render hopen hclose lineEnd] at htable
    constructor
    · exact hok
    all_goals rw [htable]
    · rfl
    · rfl
    · rfl
    · rfl
    · exact feed.table_names platform
    · intro row hrow
      exact feed.table_shape platform hrow
    · rfl

/-! ## A sample feed -/

def sampleFeedFile : FeedFile where
  version := "1.3".toList
  openTime :=
    { year := 2012, month := 5, day := 2, hour := 21, min := 19, sec := 0
      year_range := by decide
      month_range := by decide
      day_range := by decide
      hour_lt := by decide
      min_lt := by decide
      sec_lt := by decide }
  closeTime :=
    { year := 2012, month := 5, day := 3, hour := 21, min := 19, sec := 0
      year_range := by decide
      month_range := by decide
      day_range := by decide
      hour_lt := by decide
      min_lt := by decide
      sec_lt := by decide }
  columns := ["Sector".toList, "Buzz".toList, "Sentiment".toList]
  rows := [("1679".toList, ["5".toList, "-2".toList]), ("1680".toList, ["7".toList, []])]
  version_ne := by decide
  version_plain := by simp
  two_columns := by decide
  columns_plain := by decide
  rows_shape := by decide
  rows_plain := by decide
  rows_open := by decide

def feedFileConnection : Connection :=
  { sampleConnection sampleResource with data := sampleFeedFile.render .crlf }

set_option maxRecDepth 10000 in
theorem sampleFeedFile_carried (httpd : PTime) :
    CarriesFeed sampleConfig sampleTransfer { feedFileConnection with httpdPtime := httpd }
      sampleFeedFile .crlf where
  data := rfl
  status := rfl
  contentType := ⟨_, rfl, by decide⟩
  size := by
    show toSize (minimumResponseSize sampleConfig) ≤ (sampleFeedFile.render .crlf).length
    decide
  filetime := Or.inr rfl

theorem sample_feed_read_back :
    ReadsBack boostPlatform sampleFeedFile
      (respond boostPlatform sampleConfig sampleTransfer feedFileConnection (fun _ => 0) []) := by
  have hcarried := sampleFeedFile_carried feedFileConnection.httpdPtime
  refine (feed_read_back_iff hcarried (boostPlatform_readsTime _) (boostPlatform_readsTime _)
    (fun _ => 0) []).mpr ?_
  unfold timesRender
  decide

/-- The last second of Boost's calendar lies before this time of day. -/
def lateDateLine : Text := "Date: Fri, 31 Dec 9999 99:00:00 GMT\r\n".toList

/-- The date of the server is for monitoring only, and still a response is lost by it. -/
theorem late_date_loses_feed :
    ∃ connection,
      onHttpHeader boostPlatform feedFileConnection lateDateLine = .ok connection ∧
      CarriesFeed sampleConfig sampleTransfer connection sampleFeedFile .crlf ∧
      ¬ ReadsBack boostPlatform sampleFeedFile
        (respond boostPlatform sampleConfig sampleTransfer connection (fun _ => 0) []) := by
  have hdate : onHttpHeader boostPlatform feedFileConnection lateDateLine =
      .ok { feedFileConnection with httpdPtime := some 253402570800000000 } := by decide
  refine ⟨_, hdate, sampleFeedFile_carried _, ?_⟩
  intro hback
  have haccepts := (respond_accepts_iff _ _ _ _ _ _).mp hback.accepted
  have hrendered := (sampleFeedFile.rendered_render (boostPlatform_readsTime _)
    (boostPlatform_readsTime _) .crlf rfl).mp haccepts.2.2
  have hlate := hrendered (Or.inl rfl) _ (List.mem_cons_of_mem _ List.mem_cons_self)
  exact absurd hlate (by decide)

end Psych
