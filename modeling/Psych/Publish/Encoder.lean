import Psych.Publish.Rows

/-!
# The shared encoder

`fields_` and `single_write_it_` are members of `psych_t`: every table is encoded with the same
two objects, and one whose publication was left by an exception leaves them as they are.
`SendRefresh` clears the iterator and starts it anew for each row, so that nothing of what is
left reaches a message (`sendRefreshOn_eq`).
-/

namespace Psych

/-- `fields_`, and the state of `single_write_it_`. -/
structure Encoder where
  /-- The entries of the field list. -/
  fields : List (Int × FieldData) := []
  /-- The iterator was started and not completed. -/
  writing : Bool := false

def Encoder.clear (encoder : Encoder) : Encoder := { encoder with writing := false }

/-- An iterator that is still writing is not started again. -/
def Encoder.start (encoder : Encoder) : Except Fault Unit × Encoder :=
  if encoder.writing then (.error .invalidUsage, encoder)
  else (.ok (), { fields := [], writing := true })

/-- A field is bound, and its data set. -/
def Encoder.write (write : Nat → Bool) (entry : Int × FieldData) (encoder : Encoder) :
    Except Fault Unit × Encoder :=
  if encoder.writing && write encoder.fields.length then
    (.ok (), { encoder with fields := encoder.fields ++ [entry] })
  else (.error .invalidUsage, encoder)

def Encoder.complete (complete : Bool) (encoder : Encoder) : Except Fault Unit × Encoder :=
  if encoder.writing && complete then (.ok (), { encoder with writing := false })
  else (.error .invalidUsage, encoder)

/-- A column of a row, with its `column_idx`. -/
def Encoder.writeColumn (resource : Resource) (values : List Value) (write : Nat → Bool)
    (column : Text × Nat) (encoder : Encoder) : Except Fault Unit × Encoder :=
  match resource.fields.lookup column.1 with
  | none => (.ok (), encoder)
  | some fid =>
    -- where `CHECK(column_idx > 0)` fails, it logs and the code goes on
    if !(encoder.writing && write encoder.fields.length) then (.error .invalidUsage, encoder)
    else
      match rowValue values column.2 with
      | none => (.error .undefined, encoder)
      | some value => encoder.write write (fid, fieldData value)

/-- A row is encoded, whatever the encoder held before. -/
def Encoder.encodeRow (resource : Resource) (table : Table) (topic : Text) (values : List Value)
    (calls : RowCalls) (encoder : Encoder) : Except Fault Unit × Encoder :=
  match encoder.clear.start with
  | (.error e, encoder) => (.error e, encoder)
  | (.ok (), encoder) =>
    match Faults.forEach (Encoder.write calls.write) (commonFields resource table topic)
        encoder with
    | (.error e, encoder) => (.error e, encoder)
    | (.ok (), encoder) =>
      match Faults.forEach (Encoder.writeColumn resource values calls.write) table.columns.zipIdx
          encoder with
      | (.error e, encoder) => (.error e, encoder)
      | (.ok (), encoder) => encoder.complete calls.complete

/-- A row of `SendRefresh`, encoded with the shared objects. -/
def sendRowOn (config : Config) (resource : Resource) (table : Table) (calls : Nat → RowCalls)
    (row : (Text × List Value) × Nat) (s : Publish × Encoder) :
    Except Fault Unit × Publish × Encoder :=
  match resource.items.lookup row.1.1 with
  | none => (.ok (), s)
  | some (ric, topic) =>
    match s.1.provider.streams.find ric with
    | none => (.error .undefined, s)
    | some (i, stream) =>
      match s.2.encodeRow resource table topic row.1.2 (calls row.2) with
      | (.error e, encoder) => (.error e, { s.1 with unencoded := some row.2 }, encoder)
      | (.ok (), encoder) =>
        let manifest := nextManifest config resource (calls row.2).getLock row.2 s.1.manifest
        let message : Message :=
          { row := row.2, name := stream.rfaName, serviceName := cStr config.serviceName,
            fields := encoder.fields, permission := manifest }
        let r := s.1.provider.send i message (calls row.2).session
        (r.1, { s.1 with provider := r.2, manifest := manifest, handed := message :: s.1.handed },
          encoder)

/-- `SendRefresh`, with the encoder that the members hold. -/
def sendRefreshOn (config : Config) (resource : Resource) (table : Table)
    (calls : Nat → RowCalls) (provider : Provider) (encoder : Encoder) :
    Except Fault Unit × Publish × Encoder :=
  Faults.forEach (sendRowOn config resource table calls) table.rows.zipIdx
    (.start provider, encoder)

/-! ## What is left does not matter -/

/-- The encoder holds the fields of the row that is being written. -/
def Encoder.holds (encoder : Encoder) (fields : List (Int × FieldData)) : Prop :=
  encoder.writing = true ∧ encoder.fields = fields

theorem Encoder.write_eq (write : Nat → Bool) (entry : Int × FieldData) {encoder : Encoder}
    {fields : List (Int × FieldData)} (h : encoder.holds fields) :
    (encoder.write write entry).1 = (writeField write entry fields).1 ∧
      (encoder.write write entry).2.holds (writeField write entry fields).2 := by
  obtain ⟨hwriting, rfl⟩ := h
  unfold Encoder.write writeField
  rw [hwriting, Bool.true_and]
  split
  · exact ⟨rfl, rfl, rfl⟩
  · exact ⟨rfl, hwriting, rfl⟩

theorem Encoder.writeColumn_eq (resource : Resource) (values : List Value) (write : Nat → Bool)
    (column : Text × Nat) {encoder : Encoder} {fields : List (Int × FieldData)}
    (h : encoder.holds fields) :
    (encoder.writeColumn resource values write column).1 =
        (Psych.writeColumn resource values write column fields).1 ∧
      (encoder.writeColumn resource values write column).2.holds
        (Psych.writeColumn resource values write column fields).2 := by
  obtain ⟨hwriting, rfl⟩ := h
  unfold Encoder.writeColumn Psych.writeColumn Encoder.write
  rw [hwriting, Bool.true_and]
  cases resource.fields.lookup column.1 with
  | none => exact ⟨rfl, hwriting, rfl⟩
  | some fid =>
    dsimp only
    cases hwrite : write encoder.fields.length with
    | false => exact ⟨rfl, hwriting, rfl⟩
    | true =>
      cases rowValue values column.2 with
      | none => exact ⟨rfl, hwriting, rfl⟩
      | some value => exact ⟨rfl, rfl, rfl⟩

/-- A row is encoded as by a new encoder. -/
theorem Encoder.encodeRow_eq (resource : Resource) (table : Table) (topic : Text)
    (values : List Value) (calls : RowCalls) (encoder : Encoder) :
    (encoder.encodeRow resource table topic values calls).1 =
        (writeFields resource table topic values calls).1 ∧
      (encoder.encodeRow resource table topic values calls).2.fields =
        (writeFields resource table topic values calls).2 := by
  have hcommon := Faults.forEach_simulation Encoder.holds
    (l := commonFields resource table topic)
    (fun entry _ _ _ h => Encoder.write_eq calls.write entry h)
    (show ({ fields := [], writing := true } : Encoder).holds [] from ⟨rfl, rfl⟩)
  unfold Encoder.encodeRow writeFields
  rw [show encoder.clear.start = (.ok (), { fields := [], writing := true }) from rfl]
  dsimp only
  cases hr : Faults.forEach (Encoder.write calls.write) (commonFields resource table topic)
      { fields := [], writing := true } with
  | mk r written =>
    cases hr' : Faults.forEach (writeField calls.write) (commonFields resource table topic) [] with
    | mk r' fields =>
      rw [hr, hr'] at hcommon
      obtain ⟨rfl, hholds⟩ := hcommon
      cases r with
      | error e => exact ⟨rfl, hholds.2⟩
      | ok _ =>
        have hcolumns := Faults.forEach_simulation Encoder.holds (l := table.columns.zipIdx)
          (fun column _ _ _ h => Encoder.writeColumn_eq resource values calls.write column h)
          hholds
        dsimp only
        cases hc : Faults.forEach (Encoder.writeColumn resource values calls.write)
            table.columns.zipIdx written with
        | mk r written' =>
          cases hc' : Faults.forEach (Psych.writeColumn resource values calls.write)
              table.columns.zipIdx fields with
          | mk r' fields' =>
            rw [hc, hc'] at hcolumns
            obtain ⟨rfl, hholds'⟩ := hcolumns
            cases r with
            | error e => exact ⟨rfl, hholds'.2⟩
            | ok _ =>
              dsimp only
              unfold Encoder.complete
              rw [hholds'.1, Bool.true_and]
              cases calls.complete with
              | true => exact ⟨rfl, hholds'.2⟩
              | false => exact ⟨rfl, hholds'.2⟩

theorem sendRowOn_eq (config : Config) (resource : Resource) (table : Table)
    (calls : Nat → RowCalls) (row : (Text × List Value) × Nat) (s : Publish × Encoder) :
    (sendRowOn config resource table calls row s).1 =
        (sendRow config resource table calls row s.1).1 ∧
      (sendRowOn config resource table calls row s).2.1 =
        (sendRow config resource table calls row s.1).2 := by
  unfold sendRowOn sendRow
  cases resource.items.lookup row.1.1 with
  | none => exact ⟨rfl, rfl⟩
  | some item =>
    obtain ⟨ric, topic⟩ := item
    dsimp only
    cases s.1.provider.streams.find ric with
    | none => exact ⟨rfl, rfl⟩
    | some found =>
      obtain ⟨i, stream⟩ := found
      have hencoded := s.2.encodeRow_eq resource table topic row.1.2 (calls row.2)
      dsimp only
      cases hr : s.2.encodeRow resource table topic row.1.2 (calls row.2) with
      | mk r encoder =>
        cases hr' : writeFields resource table topic row.1.2 (calls row.2) with
        | mk r' fields =>
          rw [hr, hr'] at hencoded
          obtain ⟨rfl, rfl⟩ := hencoded
          cases r with
          | error e => exact ⟨rfl, rfl⟩
          | ok _ => exact ⟨rfl, rfl⟩

/-- What `SendRefresh` does is independent of the encoder it is left with. -/
theorem sendRefreshOn_eq (config : Config) (resource : Resource) (table : Table)
    (calls : Nat → RowCalls) (provider : Provider) (encoder : Encoder) :
    (sendRefreshOn config resource table calls provider encoder).1 =
        (sendRefresh config resource table calls provider).1 ∧
      (sendRefreshOn config resource table calls provider encoder).2.1 =
        (sendRefresh config resource table calls provider).2 := by
  apply Faults.forEach_simulation fun (s : Publish × Encoder) (t : Publish) => s.1 = t
  · rintro row _ s t rfl
    exact sendRowOn_eq config resource table calls row s
  · rfl

end Psych
