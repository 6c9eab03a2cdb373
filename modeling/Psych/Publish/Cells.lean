import Psych.Publish.FieldMap

/-!
# Numbers read from cells

A cell is read with `ss >> f` into a variable without an initial value, and the state of the stream
is not looked at. What is read is the longest prefix of the cell that is a number; where there is
none, whatever the variable held may be stored.

`number` gives the value of a text that is as a whole a number or non-finite, and is a parameter,
as is what happens where the extraction fails (`Platform.ReadsNumbers`).
-/

namespace Psych

variable {number : Text → Option Value}

/-- The value of the longest prefix of `s`, of at most `n` characters, that has one. -/
def longestWithin (number : Text → Option Value) (s : Text) : Nat → Option Value
  | 0 => number []
  | n + 1 => (number (s.take (n + 1))).or (longestWithin number s n)

/-- The value of the longest prefix that has one. -/
def longestNumber (number : Text → Option Value) (s : Text) : Option Value :=
  longestWithin number s s.length

/-- A text that has a value is its own longest prefix. -/
theorem longestNumber_self {s : Text} {value : Value} (h : number s = some value) :
    longestNumber number s = some value := by
  unfold longestNumber
  cases s with
  | nil => exact h
  | cons c s => rw [List.length_cons, longestWithin, ← List.length_cons, List.take_length, h,
      Option.some_or]

/-- Stream extraction skips white space and reads the longest number; where there is none it
leaves the variable as it was, or stores 0. -/
structure Platform.ReadsNumbers (platform : Platform) (number : Text → Option Value) : Prop where
  reads : ∀ {text : Text} {value : Value},
    longestNumber number (text.dropWhile isSpace) = some value →
      ∀ f, platform.extract text f = value
  fails : ∀ {text : Text}, longestNumber number (text.dropWhile isSpace) = none →
    ∀ f, platform.extract text f = f ∨ platform.extract text f = .real 0

/-! ## Cells are trimmed -/

theorem dropWhile_trimWhitespace (s : Text) :
    (trimWhitespace s).dropWhile isSpace = trimWhitespace s := by
  cases htrim : trimWhitespace s with
  | nil => rfl
  | cons c rest =>
    have hprefix : c :: rest <+: s.dropWhile isSpace := htrim ▸ List.rdropWhile_prefix isSpace _
    obtain ⟨tail, htail⟩ := hprefix
    have hne : s.dropWhile isSpace ≠ [] := by simp [← htail]
    have hhead := List.head_dropWhile_not isSpace hne
    simp only [← htail, List.cons_append, List.head_cons] at hhead
    rw [List.dropWhile_cons_of_neg (by simp [hhead])]

theorem dropWhile_cell {cells : List Text} {lines : List Text} {k j : Nat} {text : Text}
    (hrow : (rowTexts lines)[k]? = some cells) (hcell : cells[j]? = some text) :
    text.dropWhile isSpace = text := by
  obtain ⟨line, _, rfl⟩ := List.mem_map.mp (List.mem_of_mem_filter (List.mem_of_getElem? hrow))
  obtain ⟨piece, _, rfl⟩ := List.mem_map.mp (List.mem_of_getElem? hcell)
  exact dropWhile_trimWhitespace piece

/-! ## What is stored -/

/-- The same platform, with other contents of uninitialised variables. -/
def Platform.holding (platform : Platform) (uninitialised : Nat → Nat → Value) : Platform :=
  { platform with uninitialised := uninitialised }

/-- The value stored for the cell in column `j + 1` of the row `k`. -/
def Table.stored (table : Table) (k j : Nat) : Option Value :=
  (table.rows[k]?).bind fun row => row.2[j]?

/-- The value stored for a cell of an accepted response. -/
def storedValue (platform : Platform) (config : Config) (transfer : Transfer)
    (connection : Connection) (stats : Stats) (engineVersion : Text) (k j : Nat) : Option Value :=
  (respond platform config transfer connection stats engineVersion).2.table.stored k j

/-- A value cell with the text in an accepted response, and what the variables hold when the body
is read. -/
structure CellRead (platform : Platform) (config : Config) (text : Text) where
  transfer : Transfer
  connection : Connection
  stats : Stats
  engineVersion : Text
  uninitialised : Nat → Nat → Value
  k : Nat
  j : Nat
  cells : List Text
  accepted : (respond platform config transfer connection stats engineVersion).1 = .ok true
  row : (rowTexts (tokens "\n".toList connection.data))[k]? = some cells
  cell : cells[j + 1]? = some text

variable {platform : Platform} {config : Config} {text : Text}

def CellRead.stored (r : CellRead platform config text) : Option Value :=
  storedValue (platform.holding r.uninitialised) config r.transfer r.connection r.stats
    r.engineVersion r.k r.j

/-- A cell whose text has no value gets no number, in whichever response it is, and what is stored
for a text does not depend on the response, the cells before or what the variable held. -/
structure CellSound (platform : Platform) (config : Config) (number : Text → Option Value)
    (text : Text) : Prop where
  numeric : number text = none → ∀ r : CellRead platform config text, r.stored = some .nan
  pure : ∃ value, ∀ r : CellRead platform config text, r.stored = some value

/-- What is stored is what is extracted. -/
theorem CellRead.stored_eq (r : CellRead platform config text) :
    r.stored = some (platform.extract text (r.uninitialised r.k (1 + r.j))) := by
  have haccepts : accepts (platform.holding r.uninitialised) config r.transfer r.connection :=
    (respond_accepts_iff platform config _ _ r.stats r.engineVersion).mp r.accepted
  obtain ⟨htable, hbody⟩ := respond_table ((respond_accepts_iff (platform.holding r.uninitialised)
    config _ _ r.stats r.engineVersion).mpr haccepts)
  unfold CellRead.stored storedValue Table.stored
  rw [htable, scannedTable_eq r.engineVersion hbody, tableOf_rows, List.getElem?_map,
    List.getElem?_zipIdx, r.row]
  change (readValues (platform.holding r.uninitialised) (0 + r.k) 1 r.cells.tail)[r.j]? = _
  rw [getElem?_readValues, List.getElem?_tail, r.cell, Nat.zero_add]
  rfl

/-- A text in a cell of an accepted table is sound exactly where it has a value, or its longest
prefix that has one is NaN. -/
theorem cell_sound_iff (hreads : platform.ReadsNumbers number)
    (r : CellRead platform config text) :
    CellSound platform config number text ↔
      number text ≠ none ∨ longestNumber number text = some .nan := by
  have htrim := dropWhile_cell r.row r.cell
  cases hlongest : longestNumber number text with
  | some value =>
    have hvalue : ∀ f, platform.extract text f = value :=
      hreads.reads ((congrArg (longestNumber number) htrim).trans hlongest)
    have hsame : ∀ r : CellRead platform config text, r.stored = some value := fun r => by
      rw [r.stored_eq, hvalue]
    constructor
    · intro h
      by_cases hnone : number text = none
      · exact Or.inr ((hsame r).symm.trans (h.numeric hnone r))
      · exact Or.inl hnone
    · intro h
      refine ⟨fun hnone r => ?_, value, hsame⟩
      rw [hsame, h.resolve_left (not_not_intro hnone)]
  | none =>
    have hnone : number text = none := by
      cases hnumber : number text with
      | none => rfl
      | some value => exact (hlongest.symm.trans (longestNumber_self hnumber)).symm
    refine iff_of_false (fun h => ?_) (by simp [hnone])
    -- a variable that held 1 holds 1 or 0
    have hnan := h.numeric hnone { r with uninitialised := fun _ _ => .real 1 }
    rw [CellRead.stored_eq, Option.some.injEq] at hnan
    rcases hreads.fails ((congrArg (longestNumber number) htrim).trans hlongest)
        (.real 1) with hkept | hzero
    · rw [hkept] at hnan
      cases hnan
    · rw [hzero] at hnan
      cases hnan

/-! ## A platform that reads decimals -/

/-- The value of a decimal, with or without a sign and a fraction, and of `inf` and `nan`. -/
def decimalText (text : Text) : Option Value :=
  let magnitude := afterSign text
  let sign : ℚ := if text.head? = some '-' then -1 else 1
  let digits := magnitude.filter Char.isDigit
  let fraction := (magnitude.dropWhile (· ≠ '.')).drop 1
  if magnitude = "nan".toList then some .nan
  else if magnitude = "inf".toList then some (if text.head? = some '-' then .negInf else .posInf)
  else if digits ≠ [] ∧ magnitude.all (fun c => c.isDigit || c == '.') ∧
      magnitude.length ≤ digits.length + 1 then
    some (.real (sign * readDigits 0 digits / 10 ^ fraction.length))
  else none

/-- An extraction that leaves the variable as it was where it fails. -/
def readingPlatform (number : Text → Option Value) : Platform :=
  { boostPlatform with
    extract := fun text f => (longestNumber number (text.dropWhile isSpace)).getD f }

theorem readingPlatform_reads (number : Text → Option Value) :
    (readingPlatform number).ReadsNumbers number where
  reads h f := by
    unfold readingPlatform
    dsimp only
    rw [h, Option.getD_some]
  fails h f := by
    unfold readingPlatform
    dsimp only
    rw [h]
    exact Or.inl rfl

/-- What is extracted does not decide whether a response is accepted. -/
theorem reading_accepts_iff {number : Text → Option Value} {config : Config} {transfer : Transfer}
    {connection : Connection} :
    accepts (readingPlatform number) config transfer connection ↔
      accepts boostPlatform config transfer connection := Iff.rfl

theorem sample_read : (respond (readingPlatform decimalText) sampleConfig sampleTransfer
    (sampleConnection sampleResource) (fun _ => 0) []).1 = .ok true :=
  (respond_accepts_iff _ _ _ _ _ _).mpr (reading_accepts_iff.mpr (sample_accepts sampleResource))

/-- The cell `-2` of the sample response. -/
def sampleCell : CellRead (readingPlatform decimalText) sampleConfig "-2".toList where
  transfer := sampleTransfer
  connection := sampleConnection sampleResource
  stats := fun _ => 0
  engineVersion := []
  uninitialised := fun _ _ => .nan
  k := 0
  j := 1
  cells := ["1679".toList, "5".toList, "-2".toList]
  accepted := sample_read
  row := by
    rw [sampleConnection_data, sampleBody_eq]
    decide +kernel
  cell := rfl

theorem sample_cell_sound :
    CellSound (readingPlatform decimalText) sampleConfig decimalText "-2".toList :=
  (cell_sound_iff (readingPlatform_reads decimalText) sampleCell).mpr
    (Or.inl (by decide +kernel))

/-- The sample response with a cell that starts with a number. -/
def strayBody : Text :=
  ("# MarketPsych Engine Version 1.3 | 2012-05-02 21:19:00 UTC - 2012-05-03 21:19:00 UTC\n" ++
    "Sector\tBuzz\tSentiment\n1679\t5\t-2x\n").toList

def strayConnection : Connection := { sampleConnection sampleResource with data := strayBody }

theorem strayBody_eq :
    strayBody = sampleTimestamp ++ "Sector\tBuzz\tSentiment\n1679\t5\t-2x\n".toList := by
  rw [← sampleTimestamp_eq, ← String.toList_append]
  rfl

theorem strayConnection_data : strayConnection.data = strayBody := by
  unfold strayConnection
  dsimp only

theorem stray_accepts : accepts boostPlatform sampleConfig sampleTransfer strayConnection := by
  have hbody : admissible sampleConfig textPlain strayBody = true ∧
      tableAccepted boostPlatform strayBody = true ∧
      rendered boostPlatform sampleTransfer strayConnection = true := by
    unfold strayConnection
    rw [strayBody_eq]
    decide +kernel
  obtain ⟨hadmissible, htable, hrendered⟩ := hbody
  unfold accepts reachesTable
  unfold rendered at hrendered ⊢
  rw [strayConnection_data] at hrendered ⊢
  exact ⟨⟨rfl, ⟨textPlain, rfl, hadmissible⟩, Or.inr rfl⟩, htable, hrendered⟩

/-- The cell `-2x` of an accepted table. -/
def strayCell : CellRead (readingPlatform decimalText) sampleConfig "-2x".toList where
  transfer := sampleTransfer
  connection := strayConnection
  stats := fun _ => 0
  engineVersion := []
  uninitialised := fun _ _ => .nan
  k := 0
  j := 1
  cells := ["1679".toList, "5".toList, "-2x".toList]
  accepted := (respond_accepts_iff (readingPlatform decimalText) sampleConfig sampleTransfer
    strayConnection (fun _ => 0) []).mpr (reading_accepts_iff.mpr stray_accepts)
  row := by
    rw [strayConnection_data, strayBody_eq]
    decide +kernel
  cell := rfl

/-- It is stored as -2. -/
theorem prefix_is_stored :
    ¬ CellSound (readingPlatform decimalText) sampleConfig decimalText "-2x".toList := by
  intro h
  have hnan := h.numeric (by decide +kernel) strayCell
  rw [strayCell.stored_eq] at hnan
  revert hnan
  decide +kernel

end Psych
