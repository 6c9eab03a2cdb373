import Psych.Http.Verdict
import Psych.Model.Sample

/-!
# The table of an accepted body

`scanTable_eq` says what the line machine makes of the lines it accepts, without the machine: the
fields of the timestamp line, the cells of the column line, and a row for every later line with
as many cells, up to the first that starts with `#`.
-/

namespace Psych

/-! ## The parts of a body -/

/-- The column names in the lines of a body. -/
def columnNames : List Text → List Text
  | _ :: header :: _ => splitString header '\t'
  | _ => []

/-- The name and the cells of a line with as many cells as there are columns. -/
def rowCells (columns : Nat) (line : Text) : Option (Text × List Text) :=
  match splitString line '\t' with
  | [] => none
  | name :: cells => if cells.length + 1 = columns then some (name, cells) else none

/-- The rows in the lines after the column line, read after `k` others. -/
def tableRows (platform : Platform) (columns k : Nat) (lines : List Text) :
    List (Text × List Value) :=
  (((lines.takeWhile fun line => line.head? != some '#').filterMap (rowCells columns)).zipIdx k).map
    fun row => (row.1.1, readValues platform row.2 1 row.1.2)

/-- The table of the lines of an accepted body. -/
def tableOf (platform : Platform) (engineVersion : Text) : List Text → Table
  | [] => freshTable engineVersion
  | timestamp :: lines =>
    { engineVersion := lineVersion timestamp
      openTime := (lineTimes platform timestamp).1
      closeTime := (lineTimes platform timestamp).2
      columns := columnNames (timestamp :: lines)
      rows := tableRows platform (columnNames (timestamp :: lines)).length 0 (lines.drop 1) }

/-! ## The machine -/

theorem readRow_eq (platform : Platform) (line : Text) (table : Table) :
    readRow platform line table =
      { table with
        rows := table.rows ++ ((rowCells table.columns.length line).map fun row =>
          (row.1, readValues platform table.rows.length 1 row.2)).toList } := by
  unfold readRow rowCells
  dsimp only
  cases hsplit : splitString line '\t' with
  | nil => exact absurd hsplit (splitString_ne_nil line '\t')
  | cons name cells =>
    by_cases hlen : cells.length + 1 = table.columns.length
    · simp [hlen]
    · simp [hlen]

theorem scanTable_row_eq (platform : Platform) (lines : List Text) (table : Table) :
    scanTable platform .row lines table =
      (.ok true,
        { table with
          rows := table.rows ++
            tableRows platform table.columns.length table.rows.length lines }) := by
  induction lines generalizing table with
  | nil => simp [scanTable, tableRows]
  | cons line lines ih =>
    rw [scanTable_row]
    by_cases hfin : line.head? = some '#'
    · rw [if_pos hfin, scanTable_fin]
      simp [tableRows, hfin]
    · rw [if_neg hfin, ih, readRow_eq]
      cases hcells : rowCells table.columns.length line with
      | none => simp [tableRows, hfin, hcells]
      | some row => simp [tableRows, hfin, hcells]

/-- A column line with a tab sets the columns, and the rows follow. -/
theorem scanTable_header_eq (platform : Platform) {header : Text} (lines : List Text)
    {table : Table} (hcolumns : table.columns = []) (hrows : table.rows = [])
    (htab : '\t' ∈ header) :
    scanTable platform .header (header :: lines) table =
      (.ok true,
        { table with
          columns := splitString header '\t'
          rows := tableRows platform (splitString header '\t').length 0 lines }) := by
  have hlen := length_splitString header '\t'
  have hcount := List.count_pos_iff.mpr htab
  rw [scanTable_header]
  simp only [hcolumns, hrows, List.nil_append]
  rw [if_neg (by simpa [List.isEmpty_iff] using splitString_ne_nil header '\t'),
    if_neg (by omega), scanTable_row_eq]
  simp

/-- What the machine makes of lines it accepts. -/
theorem scanTable_eq {platform : Platform} {lines : List Text} (engineVersion : Text)
    (h : linesAccepted platform lines = true) :
    scanTable platform .timestamp lines (freshTable engineVersion) =
      (.ok true, tableOf platform engineVersion lines) := by
  cases lines with
  | nil => rfl
  | cons timestamp lines =>
    rw [scanTable_timestamp lines (readTimestamp_accept rfl rfl (linesAccepted_timestamp h)),
      if_pos rfl]
    cases lines with
    | nil => rfl
    | cons header lines =>
      rw [linesAccepted, Bool.and_eq_true, List.contains_iff_mem] at h
      rw [scanTable_header_eq platform lines rfl rfl h.2, tableOf, columnNames, List.drop_succ_cons,
        List.drop_zero]

theorem scannedTable_eq {platform : Platform} {data : Text} (engineVersion : Text)
    (h : tableAccepted platform data = true) :
    scannedTable platform data engineVersion =
      tableOf platform engineVersion (tokens "\n".toList data) :=
  congrArg Prod.snd (scanTable_eq engineVersion h)

/-! ## Shapes -/

theorem length_readValues (platform : Platform) (row i : Nat) (cells : List Text) :
    (readValues platform row i cells).length = cells.length := by
  induction cells generalizing i with
  | nil => rfl
  | cons cell cells ih => rw [readValues, List.length_cons, List.length_cons, ih]

theorem rowCells_length {columns : Nat} {line name : Text} {cells : List Text}
    (h : rowCells columns line = some (name, cells)) : cells.length + 1 = columns := by
  unfold rowCells at h
  split at h
  · cases h
  · split at h
    · rename_i hlen
      cases h
      exact hlen
    · cases h

/-- Every row has a value for each column but the first. -/
theorem tableRows_length {platform : Platform} {columns k : Nat} {lines : List Text}
    {row : Text × List Value} (h : row ∈ tableRows platform columns k lines) :
    row.2.length + 1 = columns := by
  obtain ⟨⟨⟨name, cells⟩, i⟩, hmem, rfl⟩ := List.mem_map.mp h
  obtain ⟨line, _, hcells⟩ := List.mem_filterMap.mp (List.fst_mem_of_mem_zipIdx hmem)
  rw [length_readValues]
  exact rowCells_length hcells

/-! ## A sample response -/

/-- The transfer and the connection of a complete sample response. -/
def sampleTransfer : Transfer :=
  { responseCode := 200, contentType := some "text/plain".toList, filetime := 1336079940 }

def sampleConnection (resource : Resource) : Connection :=
  { resource := resource, url := [], data := sampleBody, requestPtime := some 1336080000000000 }

@[simp] theorem sampleConnection_data (resource : Resource) :
    (sampleConnection resource).data = sampleBody := by
  unfold sampleConnection
  dsimp only

/-- What is evaluated of the sample response, at once. -/
theorem sample_evaluated : admissible sampleConfig textPlain sampleBody = true ∧
    tableAccepted boostPlatform sampleBody = true ∧
    rendered boostPlatform sampleTransfer (sampleConnection sampleResource) = true ∧
    2 ≤ (tokens "\n".toList sampleBody).length ∧
    (columnNames (tokens "\n".toList sampleBody)).head? = some "Sector".toList := by
  unfold sampleConnection
  rw [sampleBody_eq]
  decide +kernel

theorem sample_columns : (columnNames (tokens "\n".toList sampleBody)).head? =
    some "Sector".toList := sample_evaluated.2.2.2.2

/-- The sample response is accepted for every resource. -/
theorem sample_accepts (resource : Resource) : accepts boostPlatform sampleConfig sampleTransfer
    (sampleConnection resource) := by
  obtain ⟨hadmissible, htable, hrendered, _⟩ := sample_evaluated
  unfold accepts reachesTable
  unfold rendered at hrendered ⊢
  rw [sampleConnection_data] at hrendered ⊢
  exact ⟨⟨rfl, ⟨textPlain, rfl, hadmissible⟩, Or.inr rfl⟩, htable, hrendered⟩

end Psych
