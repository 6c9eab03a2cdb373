import Psych.Publish.Definedness
import Psych.Publish.Handed

/-!
# Which value goes under which field

The position of a column is a counter in a closure, and the vector of values, filled by
another function, starts one column later. What is published of an accepted body is written
here from its lines, with the cell of a column under the position of the column
(`dueMessage`); `SendRefresh` hands over these messages up to the first exception of RFA
(`sendRefresh_publishes`).
-/

namespace Psych

/-! ## What is due -/

/-- The cells of the table rows in the lines of a body, the label first. -/
def rowTexts (lines : List Text) : List (List Text) :=
  (((lines.drop 2).takeWhile fun line => line.head? != some '#').map
    fun line => splitString line '\t').filter
      fun cells => cells.length = (columnNames lines).length

/-- The value of the cell in column `c` of the row `k`. -/
def cellValue (platform : Platform) (k : Nat) (cells : List Text) (c : Nat) : Value :=
  platform.extract (cells.getD c []) (platform.uninitialised k c)

/-- The entries of a row: one for each column after the first that has a field. -/
def dueFields (platform : Platform) (resource : Resource) (columns : List Text) (k : Nat)
    (cells : List Text) : List (Int × FieldData) :=
  (columns.zipIdx.drop 1).filterMap fun column =>
    (resource.fields.lookup column.1).map fun fid =>
      (fid, fieldData (cellValue platform k cells column.2))

/-- The message of a row, where its label has an item. -/
def dueMessage (platform : Platform) (streams : Streams) (resource : Resource) (table : Table)
    (row : List Text × Nat) : Option Content :=
  match row.1 with
  | [] => none
  | label :: _ =>
    match resource.items.lookup label with
    | none => none
    | some (ric, topic) =>
      (streams.find ric).map fun found =>
        { name := found.2.rfaName
          fields := commonFields resource table topic ++
            dueFields platform resource table.columns row.2 row.1 }

/-! ## One row -/

/-- The entry of a column with its `column_idx`. -/
def columnEntry (resource : Resource) (values : List Value) (column : Text × Nat) :
    Option (Int × FieldData) :=
  match resource.fields.lookup column.1 with
  | none => none
  | some fid => values[column.2 - 1]?.map fun value => (fid, fieldData value)

theorem writeColumn_appends {resource : Resource} {values : List Value} {write : Nat → Bool}
    {column : Text × Nat} {fields : List (Int × FieldData)}
    (hok : (writeColumn resource values write column fields).1 = .ok ()) :
    (writeColumn resource values write column fields).2 =
      fields ++ (columnEntry resource values column).toList := by
  unfold columnEntry
  cases hfid : resource.fields.lookup column.1 with
  | none => simp [writeColumn, hfid]
  | some fid =>
    cases hwrite : write fields.length with
    | false => simp [writeColumn, hfid, hwrite] at hok
    | true =>
      rw [writeColumn_of_write hfid hwrite] at hok ⊢
      cases hvalue : rowValue values column.2 with
      | none =>
        rw [hvalue] at hok
        cases hok
      | some value =>
        unfold rowValue at hvalue
        split at hvalue
        · cases hvalue
        · rw [hvalue]
          rfl

theorem writeField_appends {write : Nat → Bool} {entry : Int × FieldData}
    {fields : List (Int × FieldData)} (hok : (writeField write entry fields).1 = .ok ()) :
    (writeField write entry fields).2 = fields ++ [entry] := by
  unfold writeField at *
  split at hok
  · rename_i hwrite
    rw [if_pos hwrite]
  · cases hok

theorem forEach_writeField_appends {write : Nat → Bool} {entries fields : List (Int × FieldData)}
    (hok : (Faults.forEach (writeField write) entries fields).1 = .ok ()) :
    (Faults.forEach (writeField write) entries fields).2 = fields ++ entries := by
  have happends := Faults.forEach_appends (f := writeField write) id (fun entry => [entry])
    (l := entries) (fun entry _ fields => writeField_appends) hok
  rwa [List.flatMap_singleton'] at happends

/-- The fields of a row that is encoded. -/
theorem writeFields_eq {resource : Resource} {table : Table} {topic : Text} {values : List Value}
    {calls : RowCalls} (hok : (writeFields resource table topic values calls).1 = .ok ()) :
    (writeFields resource table topic values calls).2 =
      commonFields resource table topic ++
        table.columns.zipIdx.filterMap (columnEntry resource values) := by
  have hcommon := @forEach_writeField_appends calls.write (commonFields resource table topic) []
  have hcolumns := fun fields => Faults.forEach_appends (f := writeColumn resource values calls.write)
    id (fun column => (columnEntry resource values column).toList) (l := table.columns.zipIdx)
    (fun column _ fields => writeColumn_appends) (s := fields)
  unfold writeFields at *
  cases hr : Faults.forEach (writeField calls.write) (commonFields resource table topic) [] with
  | mk r fields =>
    rw [hr] at hok hcommon
    cases r with
    | error e => cases hok
    | ok _ =>
      obtain rfl : fields = commonFields resource table topic := hcommon rfl
      dsimp only at hok ⊢
      specialize hcolumns (commonFields resource table topic)
      cases hr' : Faults.forEach (writeColumn resource values calls.write) table.columns.zipIdx
          (commonFields resource table topic) with
      | mk r fields =>
        rw [hr'] at hok hcolumns
        cases r with
        | error e => cases hok
        | ok _ =>
          dsimp only at hok ⊢
          rw [List.filterMap_eq_flatMap_toList, ← id_eq fields]
          split at hok
          · rename_i hcomplete
            rw [if_pos hcomplete]
            exact hcolumns rfl
          · cases hok

/-! ## Values and cells -/

theorem getElem?_readValues (platform : Platform) (row i : Nat) (cells : List Text) (j : Nat) :
    (readValues platform row i cells)[j]? =
      cells[j]?.map fun text => platform.extract text (platform.uninitialised row (i + j)) := by
  induction cells generalizing i j with
  | nil => simp [readValues]
  | cons text cells ih =>
    cases j with
    | zero => simp [readValues]
    | succ j =>
      rw [readValues, List.getElem?_cons_succ, List.getElem?_cons_succ, ih]
      rw [Nat.add_assoc, Nat.add_comm 1 j]

/-- The row of a table, by the cells of its line. -/
def tableRow (platform : Platform) (row : List Text × Nat) : Text × List Value :=
  (row.1.headD [], readValues platform row.2 1 row.1.tail)

theorem filterMap_rowCells (columns : Nat) (lines : List Text) :
    lines.filterMap (rowCells columns) =
      (((lines.map fun line => splitString line '\t').filter fun cells =>
        cells.length = columns).map fun cells => (cells.headD [], cells.tail)) := by
  induction lines with
  | nil => rfl
  | cons line lines ih =>
    have hrow : rowCells columns line = if (splitString line '\t').length = columns then
        some ((splitString line '\t').headD [], (splitString line '\t').tail) else none := by
      unfold rowCells
      cases hsplit : splitString line '\t' with
      | nil => exact absurd hsplit (splitString_ne_nil line '\t')
      | cons name cells => simp
    rw [List.filterMap_cons, hrow, List.map_cons, List.filter_cons]
    by_cases hlen : (splitString line '\t').length = columns
    · simp [hlen, ih]
    · simp [hlen, ih]

/-- The rows of an accepted table are those of the lines of the body. -/
theorem tableOf_rows (platform : Platform) (engineVersion : Text) (lines : List Text) :
    (tableOf platform engineVersion lines).rows =
      (rowTexts lines).zipIdx.map (tableRow platform) := by
  cases lines with
  | nil => rfl
  | cons timestamp lines =>
    rw [tableOf, tableRows, filterMap_rowCells, rowTexts]
    rw [List.drop_succ_cons, List.zipIdx_map, List.map_map]
    rfl

/-- Behind the label column, the entry of a column is the one that is due. -/
theorem columnEntry_eq (platform : Platform) (resource : Resource) {cells : List Text} (k : Nat)
    {column : Text × Nat} (hpos : 0 < column.2) (hlt : column.2 < cells.length) :
    columnEntry resource (readValues platform k 1 cells.tail) column =
      (resource.fields.lookup column.1).map fun fid =>
        (fid, fieldData (cellValue platform k cells column.2)) := by
  unfold columnEntry cellValue
  obtain ⟨c, hc⟩ := Nat.exists_eq_add_one.mpr hpos
  cases resource.fields.lookup column.1 with
  | none => rfl
  | some fid =>
    dsimp only
    rw [hc] at hlt ⊢
    rw [getElem?_readValues, Nat.add_sub_cancel, List.getElem?_tail,
      List.getD_eq_getElem?_getD, List.getElem?_eq_getElem hlt, Nat.add_comm 1 c]
    rfl

/-- The mapped columns of a row, where the label column has no field. -/
theorem columnEntries_eq (platform : Platform) (resource : Resource) {columns cells : List Text}
    (k : Nat) (hlabel : ∀ name, columns.head? = some name → resource.fields.lookup name = none)
    (hlen : cells.length = columns.length) :
    columns.zipIdx.filterMap (columnEntry resource (readValues platform k 1 cells.tail)) =
      dueFields platform resource columns k cells := by
  unfold dueFields
  cases columns with
  | nil => rfl
  | cons name columns =>
    rw [List.zipIdx_cons, List.filterMap_cons, List.drop_succ_cons, List.drop_zero]
    have hfirst : columnEntry resource (readValues platform k 1 cells.tail) (name, 0) = none := by
      simp [columnEntry, hlabel name rfl]
    rw [hfirst]
    refine List.filterMap_congr fun column hcolumn => ?_
    have hbound := List.mem_zipIdx hcolumn
    rw [List.length_cons] at hlen
    exact columnEntry_eq platform resource k (by omega) (by omega)

/-! ## The refresh -/

variable {config : Config} {resource : Resource} {table : Table} {calls : Nat → RowCalls}
  {streams : Streams}

/-- What is handed over for a row, by its values. -/
def rowMessage (streams : Streams) (resource : Resource) (table : Table)
    (row : (Text × List Value) × Nat) : Option Content :=
  match resource.items.lookup row.1.1 with
  | none => none
  | some (ric, topic) =>
    (streams.find ric).map fun found =>
      { name := found.2.rfaName
        fields := commonFields resource table topic ++
          table.columns.zipIdx.filterMap (columnEntry resource row.1.2) }

/-- A row hands over its message or nothing, and the message where no fault ends it. -/
theorem sendRow_message (config : Config) (calls : Nat → RowCalls)
    {row : (Text × List Value) × Nat} {s : Publish}
    (hsame : SameStreams streams s.provider.streams) :
    (sendRow config resource table calls row s).2.handed.map Message.content =
        (rowMessage streams resource table row).toList ++ s.handed.map Message.content ∨
      (sendRow config resource table calls row s).1 ≠ .ok () ∧
        (sendRow config resource table calls row s).2.handed = s.handed := by
  unfold sendRow rowMessage
  cases hitem : resource.items.lookup row.1.1 with
  | none => exact Or.inl rfl
  | some item =>
    obtain ⟨ric, topic⟩ := item
    dsimp only
    cases hfind : s.provider.streams.find ric with
    | none => exact Or.inr ⟨by simp, rfl⟩
    | some found =>
      obtain ⟨i, stream⟩ := found
      obtain ⟨stream', hfind', hname⟩ := hsame.find_name hfind
      have hfields := @writeFields_eq resource table topic row.1.2 (calls row.2)
      dsimp only
      cases hwrite : writeFields resource table topic row.1.2 (calls row.2) with
      | mk r fields =>
        rw [hwrite] at hfields
        cases r with
        | error e => exact Or.inr ⟨by simp, rfl⟩
        | ok _ =>
          left
          rw [hfind', ← hfields rfl]
          simp [Message.content, hname]

/-- The messages of a refresh are those of the rows, in order, up to a fault. -/
theorem sendRefresh_messages (config : Config) (resource : Resource) (table : Table)
    (calls : Nat → RowCalls) (provider : Provider) :
    (sendRefresh config resource table calls provider).2.handed.reverse.map Message.content <+:
        table.rows.zipIdx.filterMap (rowMessage provider.streams resource table) ∧
      ((sendRefresh config resource table calls provider).1 = .ok () →
        (sendRefresh config resource table calls provider).2.handed.reverse.map Message.content =
          table.rows.zipIdx.filterMap (rowMessage provider.streams resource table)) := by
  let sent : List ((Text × List Value) × Nat) → List Content :=
    List.filterMap (rowMessage provider.streams resource table)
  let I : List ((Text × List Value) × Nat) → Publish → Prop := fun pre s =>
    SameStreams provider.streams s.provider.streams ∧
      s.handed.reverse.map Message.content = sent pre
  have hstreams : ∀ row s, SameStreams provider.streams s.provider.streams →
      SameStreams provider.streams (sendRow config resource table calls row s).2.provider.streams :=
    fun row s hs => hs.trans (sendRow_grows row s).1.streams
  have hsnoc : ∀ pre row s, I pre s →
      (sendRow config resource table calls row s).2.handed.map Message.content =
          (rowMessage provider.streams resource table row).toList ++
            s.handed.map Message.content →
        I (pre ++ [row]) (sendRow config resource table calls row s).2 := by
    intro pre row s hI hhanded
    refine ⟨hstreams row s hI.1, ?_⟩
    rw [List.map_reverse, hhanded, List.reverse_append, ← List.map_reverse, hI.2]
    simp only [sent, List.filterMap_append]
    cases hmessage : rowMessage provider.streams resource table row <;> simp [hmessage]
  have hrun := Faults.forEach_prefix (f := sendRow config resource table calls)
    (l := table.rows.zipIdx) (I := I)
    (F := fun _ s => s.handed.reverse.map Message.content <+: sent table.rows.zipIdx)
    (fun pre row post s _ hI hok => by
      rcases sendRow_message config calls hI.1 with hhanded | ⟨hno, _⟩
      · exact hsnoc pre row s hI hhanded
      · exact absurd hok hno)
    (fun pre row post s e hsplit hI _ => by
      rcases sendRow_message config calls hI.1 with hhanded | ⟨_, hnone⟩
      · rw [(hsnoc pre row s hI hhanded).2, hsplit, List.append_cons pre row post]
        exact (List.prefix_append _ post).filterMap _
      · rw [hnone, hI.2, hsplit]
        exact (List.prefix_append pre _).filterMap _)
    (s := .start provider) ⟨.refl _, rfl⟩
  unfold sendRefresh
  rcases hrun with ⟨_, hI⟩ | ⟨e, he, hpart⟩
  · exact ⟨hI.2 ▸ List.prefix_refl _, fun _ => hI.2⟩
  · refine ⟨hpart, fun hok => ?_⟩
    rw [he] at hok
    cases hok

/-- A message has the common fields, and those of the columns of its row. -/
theorem handed_fields {provider : Provider} {message : Message}
    (h : message ∈ (sendRefresh config resource table calls provider).2.handed) :
    ∃ row ∈ table.rows, ∃ topic, message.fields = commonFields resource table topic ++
      table.columns.zipIdx.filterMap (columnEntry resource row.2) := by
  have hmem : message.content ∈
      table.rows.zipIdx.filterMap (rowMessage provider.streams resource table) :=
    (sendRefresh_messages config resource table calls provider).1.subset
      (List.mem_map_of_mem (List.mem_reverse.mpr h))
  obtain ⟨row, hrow, hcontent⟩ := List.mem_filterMap.mp hmem
  refine ⟨row.1, List.fst_mem_of_mem_zipIdx hrow, ?_⟩
  unfold rowMessage at hcontent
  split at hcontent
  · cases hcontent
  · rename_i ric topic _
    obtain ⟨found, _, heq⟩ := Option.map_eq_some_iff.mp hcontent
    exact ⟨topic, (congrArg Content.fields heq).symm⟩

/-! ## An accepted table -/

theorem zipIdx_zipIdx {α : Type} (l : List α) (k : Nat) :
    (l.zipIdx k).zipIdx k = (l.zipIdx k).map fun x => (x, x.2) := by
  induction l generalizing k with
  | nil => rfl
  | cons x l ih => rw [List.zipIdx_cons, List.zipIdx_cons, ih, List.map_cons]

/-- What is handed over for the rows of an accepted table is what is due. -/
theorem rowMessages_eq (streams : Streams) (platform : Platform) (engineVersion : Text)
    {lines : List Text}
    (hlabel : ∀ name, (columnNames lines).head? = some name → resource.fields.lookup name = none) :
    (tableOf platform engineVersion lines).rows.zipIdx.filterMap
        (rowMessage streams resource (tableOf platform engineVersion lines)) =
      (rowTexts lines).zipIdx.filterMap
        (dueMessage platform streams resource (tableOf platform engineVersion lines)) := by
  have hcolumns : (tableOf platform engineVersion lines).columns = columnNames lines :=
    (tableOf_shape platform engineVersion lines).2.1
  rw [tableOf_rows, List.zipIdx_map, zipIdx_zipIdx, List.filterMap_map, List.filterMap_map]
  refine List.filterMap_congr fun row hrow => ?_
  have hcells : row.1 ∈ rowTexts lines := List.fst_mem_of_mem_zipIdx hrow
  obtain ⟨hsplit, hlen⟩ := List.mem_filter.mp hcells
  obtain ⟨line, _, hline⟩ := List.mem_map.mp hsplit
  obtain ⟨cells, k⟩ := row
  dsimp only at hline hlen
  cases cells with
  | nil => exact absurd hline (splitString_ne_nil line '\t')
  | cons label cells =>
    have hentries := columnEntries_eq platform resource k hlabel (of_decide_eq_true hlen)
    simp only [Function.comp_apply, Prod.map_apply, rowMessage, dueMessage, tableRow, id_eq,
      List.headD_cons, hcolumns]
    rw [hentries]

/-- Of an accepted table the messages due are handed over in table order, all of them where
RFA throws nothing, and none out of its place otherwise. -/
theorem sendRefresh_publishes (platform : Platform) (config : Config) (transfer : Transfer)
    (connection : Connection) (stats : Stats) (engineVersion : Text) (provider : Provider)
    (calls : Nat → RowCalls)
    (haccepted : (respond platform config transfer connection stats engineVersion).1 = .ok true)
    (hlabel : ∀ name, (columnNames (tokens "\n".toList connection.data)).head? = some name →
      connection.resource.fields.lookup name = none)
    (hready : provider.Ready connection.resource) :
    let table := (respond platform config transfer connection stats engineVersion).2.table
    let refresh := sendRefresh config connection.resource table calls provider
    let due := (rowTexts (tokens "\n".toList connection.data)).zipIdx.filterMap
      (dueMessage platform provider.streams connection.resource table)
    refresh.2.handed.reverse.map Message.content <+: due ∧
      (refresh.1 = .ok () → refresh.2.handed.reverse.map Message.content = due) ∧
      ((∀ k, (calls k).Benign) → refresh.1 = .ok ()) := by
  obtain ⟨htable, hbody⟩ := respond_table haccepted
  dsimp only
  rw [htable]
  obtain ⟨hrect, hcolumns, _⟩ := scannedTable_shape engineVersion hbody
  rw [← hcolumns] at hlabel
  have hmessages := sendRefresh_messages config connection.resource
    (scannedTable platform connection.data engineVersion) calls provider
  have hdue := rowMessages_eq provider.streams platform engineVersion
    (hcolumns ▸ hlabel)
  rw [← scannedTable_eq engineVersion hbody] at hdue
  rw [hdue] at hmessages
  refine ⟨hmessages.1, hmessages.2, fun hcalls => ?_⟩
  refine (sendRefresh_benign config _ hready hcalls).1.mpr fun row hrow _ => ?_
  refine (indexed_rectangular hrect hrow).mpr fun name hname hfield => ?_
  simp [hlabel name hname] at hfield

theorem sample_label_unmapped : ∀ name,
    (columnNames (tokens "\n".toList (sampleConnection sampleResource).data)).head? = some name →
      (sampleConnection sampleResource).resource.fields.lookup name = none := by
  intro name hname
  rw [sampleConnection_data] at hname
  obtain rfl : "Sector".toList = name := Option.some.inj (sample_columns.symm.trans hname)
  decide

/-- The sample response is published as is due. -/
theorem sample_publishes :
    let connection := sampleConnection sampleResource
    let provider := Provider.create 1 [connection.resource]
    (sendRefresh sampleConfig connection.resource
        (respond boostPlatform sampleConfig sampleTransfer connection (fun _ => 0) []).2.table
        (fun _ => {}) provider).2.handed.reverse.map Message.content =
      (rowTexts (tokens "\n".toList connection.data)).zipIdx.filterMap
        (dueMessage boostPlatform provider.streams connection.resource
          (respond boostPlatform sampleConfig sampleTransfer connection (fun _ => 0) []).2.table) := by
  intro connection provider
  obtain ⟨_, hdue, hok⟩ := sendRefresh_publishes boostPlatform sampleConfig sampleTransfer
    connection (fun _ => 0) [] provider (fun _ => {})
    ((respond_accepts_iff _ _ _ _ _ _).mpr (sample_accepts _)) sample_label_unmapped
    (create_ready 1 (List.mem_singleton_self _))
  exact hdue (hok fun _ => ⟨fun _ => rfl, rfl, fun _ => rfl⟩)

end Psych
