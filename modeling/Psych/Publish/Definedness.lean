import Psych.Http.Scan
import Psych.Publish.Rows

/-!
# The publication of an accepted table

The parser fixes the lengths (`tableOf_shape`): every row of an accepted table has one
value for each column but the first. The publisher walks the columns with a counter of its
own, which is 0 at the first column: where that is mapped, the failed check of the counter is
logged and `row.second[-1]` read, which is undefined. So the publication of an accepted table is
defined exactly when the label column is not a configured field, or no row has an item
(`publication_defined_iff`).
-/

namespace Psych

/-! ## The shape of an accepted table -/

/-- The label of a line with as many cells as there are columns. -/
def rowLabel (columns : Nat) (line : Text) : Option Text :=
  if (splitString line '\t').length = columns then (splitString line '\t').head? else none

/-- The labels of the table rows in the lines of a body: up to the first line that starts
with `#`, without the lines of another length. -/
def rowLabels (lines : List Text) : List Text :=
  ((lines.drop 2).takeWhile fun line => line.head? != some '#').filterMap
    (rowLabel (columnNames lines).length)

/-- Every row has a value for each column but the first. -/
def Table.Rectangular (table : Table) : Prop :=
  ∀ row ∈ table.rows, row.2.length + 1 = table.columns.length

theorem rowCells_label (columns : Nat) (line : Text) :
    (rowCells columns line).map Prod.fst = rowLabel columns line := by
  unfold rowCells rowLabel
  cases hsplit : splitString line '\t' with
  | nil => exact absurd hsplit (splitString_ne_nil line '\t')
  | cons name cells =>
    by_cases hlen : cells.length + 1 = columns
    · simp [hlen]
    · simp [hlen]

/-- The labels of the rows of a table. -/
theorem tableRows_labels (platform : Platform) (columns k : Nat) (lines : List Text) :
    (tableRows platform columns k lines).map Prod.fst =
      (lines.takeWhile fun line => line.head? != some '#').filterMap (rowLabel columns) := by
  unfold tableRows
  rw [List.map_map, ← funext (rowCells_label columns), ← List.map_filterMap]
  conv_rhs => rw [← List.zipIdx_map_fst k (List.filterMap _ _), List.map_map]
  rfl

theorem tableOf_shape (platform : Platform) (engineVersion : Text) (lines : List Text) :
    (tableOf platform engineVersion lines).Rectangular ∧
      (tableOf platform engineVersion lines).columns = columnNames lines ∧
      (tableOf platform engineVersion lines).rows.map Prod.fst = rowLabels lines := by
  cases lines with
  | nil => exact ⟨by simp [Table.Rectangular, tableOf, freshTable], rfl, rfl⟩
  | cons timestamp lines =>
    refine ⟨fun row hrow => tableRows_length hrow, rfl, ?_⟩
    rw [rowLabels, List.drop_succ_cons]
    exact tableRows_labels platform _ 0 (lines.drop 1)

theorem scannedTable_shape {platform : Platform} {data : Text} (engineVersion : Text)
    (h : tableAccepted platform data = true) :
    (scannedTable platform data engineVersion).Rectangular ∧
      (scannedTable platform data engineVersion).columns =
        columnNames (tokens "\n".toList data) ∧
      (scannedTable platform data engineVersion).rows.map Prod.fst =
        rowLabels (tokens "\n".toList data) := by
  rw [scannedTable_eq engineVersion h]
  exact tableOf_shape platform engineVersion _

/-! ## The label column -/

/-- The first column has the name of a configured field, and some row has an item. -/
def labelPublished (resource : Resource) (lines : List Text) : Prop :=
  (∃ name, (columnNames lines).head? = some name ∧ (resource.fields.lookup name).isSome = true) ∧
    ∃ label ∈ rowLabels lines, (resource.items.lookup label).isSome = true

/-- The publication of the table is defined, whatever the RFA calls come to. -/
def PublicationDefined (config : Config) (resource : Resource) (table : Table) : Prop :=
  ∀ provider : Provider, provider.Ready resource → ∀ calls,
    (sendRefresh config resource table calls provider).1 ≠ .error .undefined

/-- In a rectangular table only the first column can be out of place. -/
theorem indexed_rectangular {resource : Resource} {table : Table} (h : table.Rectangular)
    {row : Text × List Value} (hrow : row ∈ table.rows) :
    indexed resource table row.2 ↔
      ∀ name, table.columns.head? = some name → ¬ (resource.fields.lookup name).isSome = true := by
  have hlen := h row hrow
  rw [List.head?_eq_getElem?]
  constructor
  · intro hindexed name hname hmapped
    exact absurd (hindexed 0 name hname hmapped).1 (Nat.lt_irrefl 0)
  · intro hhead i name hname hmapped
    have hlt := (List.getElem?_eq_some_iff.mp hname).1
    refine ⟨Nat.pos_of_ne_zero fun hzero => ?_, by omega⟩
    rw [hzero] at hname
    exact hhead name hname hmapped

/-- The publication of a table is defined exactly when its mapped rows are indexed. -/
theorem publicationDefined_of_rows (config : Config) (resource : Resource) (table : Table) :
    PublicationDefined config resource table ↔
      ∀ row ∈ table.rows, mapped resource row → indexed resource table row.2 := by
  constructor
  · intro h
    have hready := create_ready 1 (List.mem_singleton_self resource)
    have hbenign : ∀ k, ((fun _ => {} : Nat → RowCalls) k).Benign :=
      fun _ => ⟨fun _ => rfl, rfl, fun _ => rfl⟩
    obtain ⟨hiff, hundefined⟩ := sendRefresh_benign config table hready hbenign
    apply hiff.mp
    cases hr : (sendRefresh config resource table (fun _ => {})
        (.create 1 [resource])).1 with
    | ok _ => rfl
    | error e => exact absurd (hundefined e hr ▸ hr) (h _ hready _)
  · intro h provider hready calls hundefined
    cases sendRefresh_error hready h _ hundefined

/-- The publication of an accepted table is defined exactly when its first column is no
configured field or none of its rows has an item. -/
theorem publication_defined_iff (platform : Platform) (config : Config) (transfer : Transfer)
    (connection : Connection) (stats : Stats) (engineVersion : Text)
    (haccepted : (respond platform config transfer connection stats engineVersion).1 = .ok true) :
    PublicationDefined config connection.resource
        (respond platform config transfer connection stats engineVersion).2.table ↔
      ¬ labelPublished connection.resource (tokens "\n".toList connection.data) := by
  obtain ⟨htable, hbody⟩ := respond_table haccepted
  obtain ⟨hrect, hcolumns, hlabels⟩ := scannedTable_shape engineVersion hbody
  rw [htable, publicationDefined_of_rows]
  unfold labelPublished
  rw [← hcolumns, ← hlabels]
  constructor
  · rintro h ⟨⟨name, hname, hfield⟩, label, hlabel, hitem⟩
    obtain ⟨row, hrow, rfl⟩ := List.mem_map.mp hlabel
    exact (indexed_rectangular hrect hrow).mp (h row hrow hitem) name hname hfield
  · intro h row hrow hmapped
    refine (indexed_rectangular hrect hrow).mpr fun name hname hfield => h ⟨⟨name, hname, hfield⟩, ?_⟩
    exact ⟨row.1, List.mem_map_of_mem hrow, hmapped⟩

/-! ## A sample response -/

theorem sample_publication_defined :
    PublicationDefined sampleConfig sampleResource
      (respond boostPlatform sampleConfig sampleTransfer (sampleConnection sampleResource)
        (fun _ => 0) []).2.table :=
  (publication_defined_iff boostPlatform sampleConfig sampleTransfer
    (sampleConnection sampleResource) (fun _ => 0) []
    ((respond_accepts_iff _ _ _ _ _ _).mpr (sample_accepts _))).mpr fun h => by
      obtain ⟨⟨name, hname, hfield⟩, _⟩ := h
      rw [sampleConnection_data] at hname
      obtain rfl : "Sector".toList = name := Option.some.inj (sample_columns.symm.trans hname)
      exact absurd hfield (by decide)

theorem sample_label : "1679".toList ∈ rowLabels (tokens "\n".toList sampleBody) := by
  rw [sampleBody_eq]
  decide +kernel

/-- A resource that maps the label column. -/
def labelledResource : Resource :=
  { sampleResource with fields := ("Sector".toList, 5) :: sampleResource.fields }

/-- A valid configuration names the label column, and the publication of a response with the usual
header is undefined. -/
theorem label_column_undefined :
    Config.validate { sampleConfig with resources := [labelledResource] } = true ∧
      (respond boostPlatform { sampleConfig with resources := [labelledResource] } sampleTransfer
        (sampleConnection labelledResource) (fun _ => 0) []).1 = .ok true ∧
      ¬ PublicationDefined { sampleConfig with resources := [labelledResource] } labelledResource
        (respond boostPlatform { sampleConfig with resources := [labelledResource] } sampleTransfer
          (sampleConnection labelledResource) (fun _ => 0) []).2.table := by
  have haccepted := (respond_accepts_iff boostPlatform
    { sampleConfig with resources := [labelledResource] } sampleTransfer
    (sampleConnection labelledResource) (fun _ => 0) []).mpr (sample_accepts labelledResource)
  refine ⟨by decide, haccepted, fun h => ?_⟩
  apply (publication_defined_iff _ _ _ _ _ _ haccepted).mp h
  rw [sampleConnection_data]
  exact ⟨⟨_, sample_columns, by decide⟩, _, sample_label, by decide⟩

end Psych
