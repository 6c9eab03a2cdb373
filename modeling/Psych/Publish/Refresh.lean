import Psych.Http.Table
import Psych.Library.FloatingPoint
import Psych.Model.Calendar
import Psych.Rfa.Provider

/-!
# `SendRefresh`

A table is published row by row: a row with an item is encoded into fields, its message
gets the permission data of the response's manifest, and `provider_t::Send` gives it to
the sessions. One response object, with its manifest, serves all rows.
-/

namespace Psych

/-! ## Fields -/

def kRdmStockRicId : Int := 1026
def kRdmSourceFeedNameId : Int := 1686
def kRdmTimeOfUpdateId : Int := 6640
def kRdmActiveDateId : Int := 6772
def kRdmEngineVersionId : Int := 8569

/-- `double`. -/
def binary64 : FloatingPoint.Format := ⟨53, -1074, Nat.succ_pos 52⟩

/-- `marketpsych::round_half_up`, of a `double`: the sum is rounded before its floor is taken. -/
def roundHalfUp (x : ℚ) : Int := ⌊binary64.nearest (x + 1 / 2)⌋

/-- `marketpsych::mantissa`: the product is rounded, too; `none` where the conversion to `int64_t`
is undefined, which takes in the products that overflow. -/
def mantissa : Value → Option Int
  | .real q =>
    let n := roundHalfUp (binary64.nearest (q * 1000000))
    if -2 ^ 63 ≤ n ∧ n < 2 ^ 63 then some n else none
  | .posInf | .negInf | .nan => none

/-- The data of a cell. -/
def fieldData : Value → FieldData
  | .nan => .blank
  | value => .real (mantissa value)

/-- The date as RFA takes it: 16 bits for the year, 8 for the month and the day. -/
def activeDate (tm : Tm) : FieldData :=
  .date ((1900 + tm.year) % 2 ^ 16) ((1 + tm.mon) % 2 ^ 8) (tm.mday % 2 ^ 8)

/-- The fields every message has. -/
def commonFields (resource : Resource) (table : Table) (topic : Text) : List (Int × FieldData) :=
  let tm := gmtime32 (toUnixEpoch table.closeTime)
  [(kRdmStockRicId, .asciiString (cStr topic)),
    (kRdmSourceFeedNameId, .rmtesString (cStr resource.source)),
    (kRdmEngineVersionId, .rmtesString (cStr table.engineVersion)),
    (kRdmTimeOfUpdateId, .time tm.hour tm.min tm.sec 0),
    (kRdmActiveDateId, activeDate tm)]

/-- The outcomes of the RFA calls made for one row. -/
structure RowCalls where
  /-- Whether the iterator takes the `n`th field, or throws. -/
  write : Nat → Bool := fun _ => true
  /-- Whether `complete` returns, or throws. -/
  complete : Bool := true
  /-- Whether `getLock` generates a lock. -/
  getLock : Bool := true
  session : Nat → SessionCall := fun _ => {}

def writeField (write : Nat → Bool) (entry : Int × FieldData) (fields : List (Int × FieldData)) :
    Except Fault Unit × List (Int × FieldData) :=
  if write fields.length then (.ok (), fields ++ [entry]) else (.error .invalidUsage, fields)

/-- `row.second[column_idx-1]`; `none` where the read is outside the vector. The index of the column 0
wraps around. -/
def rowValue (values : List Value) (columnIdx : Nat) : Option Value :=
  if columnIdx = 0 then none else values[columnIdx - 1]?

/-- A column of a row, with its `column_idx`. -/
def writeColumn (resource : Resource) (values : List Value) (write : Nat → Bool)
    (column : Text × Nat) (fields : List (Int × FieldData)) :
    Except Fault Unit × List (Int × FieldData) :=
  match resource.fields.lookup column.1 with
  | none => (.ok (), fields)
  | some fid =>
    -- where `CHECK(column_idx > 0)` fails, it logs and the code goes on
    if !write fields.length then (.error .invalidUsage, fields)
    else
      match rowValue values column.2 with
      | none => (.error .undefined, fields)
      | some value => (.ok (), fields ++ [(fid, fieldData value)])

/-- The fields of a row. -/
def writeFields (resource : Resource) (table : Table) (topic : Text) (values : List Value)
    (calls : RowCalls) : Except Fault Unit × List (Int × FieldData) :=
  match Faults.forEach (writeField calls.write) (commonFields resource table topic) [] with
  | (.error e, fields) => (.error e, fields)
  | (.ok (), fields) =>
    match Faults.forEach (writeColumn resource values calls.write) table.columns.zipIdx fields with
    | (.error e, fields) => (.error e, fields)
    | (.ok (), fields) =>
      if calls.complete then (.ok (), fields) else (.error .invalidUsage, fields)

/-! ## Permissioning -/

/-- `GeneratePELock`: the lock of a row, in the buffer of that row. -/
def generatePELock (config : Config) (resource : Resource) (getLock : Bool) (row : Nat) :
    Option Permission :=
  if getLock then
    some { row := row,
           lock := { serviceId := atol config.dacsId, peList := [resource.entitlementCode] } }
  else none

/-- The permission data of the manifest when a row is sent: what an earlier row left
there, unless this row generates its own lock. -/
def nextManifest (config : Config) (resource : Resource) (getLock : Bool) (row : Nat)
    (manifest : Option Permission) : Option Permission :=
  if config.dacsId.isEmpty then manifest
  else (generatePELock config resource getLock row).or manifest

/-! ## Rows -/

/-- The state of `SendRefresh` between two rows. -/
structure Publish where
  provider : Provider
  /-- The permission data of the manifest of the response. -/
  manifest : Option Permission := none
  /-- The messages given to `provider_t::Send`, newest first; not in the source. -/
  handed : List Message := []
  /-- The row whose fields could not be written; not in the source. -/
  unencoded : Option Nat := none

/-- The state before the first row; the turns of earlier refreshes are forgotten. -/
def Publish.start (provider : Provider) : Publish :=
  { provider := { provider with turns := [] } }

def sendRow (config : Config) (resource : Resource) (table : Table) (calls : Nat → RowCalls)
    (row : (Text × List Value) × Nat) (s : Publish) : Except Fault Unit × Publish :=
  match resource.items.lookup row.1.1 with
  -- the row does not exist in the map
  | none => (.ok (), s)
  | some (ric, topic) =>
    match s.provider.streams.find ric with
    -- a null stream, which `Init` excludes
    | none => (.error .undefined, s)
    | some (i, stream) =>
      match writeFields resource table topic row.1.2 (calls row.2) with
      | (.error e, _) => (.error e, { s with unencoded := some row.2 })
      | (.ok (), fields) =>
        let manifest := nextManifest config resource (calls row.2).getLock row.2 s.manifest
        let message : Message :=
          { row := row.2, name := stream.rfaName, serviceName := cStr config.serviceName,
            fields := fields, permission := manifest }
        let r := s.provider.send i message (calls row.2).session
        (r.1, { s with provider := r.2, manifest := manifest, handed := message :: s.handed })

/-- `SendRefresh`. -/
def sendRefresh (config : Config) (resource : Resource) (table : Table) (calls : Nat → RowCalls)
    (provider : Provider) : Except Fault Unit × Publish :=
  Faults.forEach (sendRow config resource table calls) table.rows.zipIdx (.start provider)

/-! ## What a row can do -/

/-- The row has an item. -/
def mapped (resource : Resource) (row : Text × List Value) : Prop :=
  (resource.items.lookup row.1).isSome = true

/-- Every mapped column of the row is found in its value vector, and none is the first. -/
def indexed (resource : Resource) (table : Table) (values : List Value) : Prop :=
  ∀ (i : Nat) (column : Text), table.columns[i]? = some column →
    (resource.fields.lookup column).isSome = true → 0 < i ∧ i ≤ values.length

theorem forEach_writeField (write : Nat → Bool) (entries : List (Int × FieldData))
    (fields : List (Int × FieldData)) :
    (∀ e, (Faults.forEach (writeField write) entries fields).1 = .error e → e = .invalidUsage) ∧
    ((∀ n, write n = true) → (Faults.forEach (writeField write) entries fields).1 = .ok ()) := by
  constructor
  · refine Faults.forEach_error (fun _ => True) (fun entry _ fields _ => ⟨?_, trivial⟩) trivial
    unfold writeField
    split <;> simp
  · intro hwrite
    refine (Faults.forEach_ok (fun _ => True) (fun entry _ fields _ => ⟨?_, trivial⟩) trivial).1
    simp [writeField, hwrite]

theorem rowValue_isSome_iff (values : List Value) (columnIdx : Nat) :
    (rowValue values columnIdx).isSome = true ↔ 0 < columnIdx ∧ columnIdx ≤ values.length := by
  unfold rowValue
  by_cases hzero : columnIdx = 0
  · simp [hzero]
  · rw [if_neg hzero, Option.isSome_iff_exists]
    constructor
    · rintro ⟨value, hvalue⟩
      have hlt := (List.getElem?_eq_some_iff.mp hvalue).1
      omega
    · intro h
      exact ⟨_, List.getElem?_eq_getElem (by omega)⟩

/-- A column with a field, once the iterator has taken the field: its value is there, or the read
is undefined. -/
theorem writeColumn_of_write {resource : Resource} {values : List Value} {write : Nat → Bool}
    {column : Text × Nat} {fields : List (Int × FieldData)} {fid : Int}
    (hfid : resource.fields.lookup column.1 = some fid) (hwrite : write fields.length = true) :
    writeColumn resource values write column fields =
      match rowValue values column.2 with
      | none => (.error .undefined, fields)
      | some value => (.ok (), fields ++ [(fid, fieldData value)]) := by
  unfold writeColumn
  rw [hfid]
  dsimp only
  rw [hwrite]
  rfl

theorem writeColumn_ok {resource : Resource} {values : List Value} {write : Nat → Bool}
    (hwrite : ∀ n, write n = true) (column : Text × Nat) (fields : List (Int × FieldData)) :
    (writeColumn resource values write column fields).1 = .ok () ↔
      ((resource.fields.lookup column.1).isSome = true →
        0 < column.2 ∧ column.2 ≤ values.length) := by
  cases hfid : resource.fields.lookup column.1 with
  | none => simp [writeColumn, hfid]
  | some fid =>
    rw [writeColumn_of_write hfid (hwrite _), ← rowValue_isSome_iff]
    cases rowValue values column.2 with
    | none => simp
    | some value => simp

theorem writeColumn_error {resource : Resource} {values : List Value} {write : Nat → Bool}
    {column : Text × Nat} {fields : List (Int × FieldData)}
    (h : (resource.fields.lookup column.1).isSome = true →
      0 < column.2 ∧ column.2 ≤ values.length) :
    ∀ e, (writeColumn resource values write column fields).1 = .error e → e = .invalidUsage := by
  intro e he
  cases hfid : resource.fields.lookup column.1 with
  | none => simp [writeColumn, hfid] at he
  | some fid =>
    obtain ⟨value, hvalue⟩ := Option.isSome_iff_exists.mp
      ((rowValue_isSome_iff values column.2).mpr (h (by simp [hfid])))
    cases hwrite : write fields.length with
    | false => simpa [writeColumn, hfid, hwrite] using he.symm
    | true =>
      rw [writeColumn_of_write hfid hwrite, hvalue] at he
      cases he

theorem writeColumn_undefined {resource : Resource} {values : List Value} {write : Nat → Bool}
    (hwrite : ∀ n, write n = true) (column : Text × Nat) (fields : List (Int × FieldData)) :
    ∀ e, (writeColumn resource values write column fields).1 = .error e → e = .undefined := by
  intro e he
  cases hfid : resource.fields.lookup column.1 with
  | none => simp [writeColumn, hfid] at he
  | some fid =>
    rw [writeColumn_of_write hfid (hwrite _)] at he
    cases hvalue : rowValue values column.2 with
    | none =>
      rw [hvalue] at he
      exact (Except.error.inj he).symm
    | some value =>
      rw [hvalue] at he
      cases he

theorem indexed_iff {resource : Resource} {table : Table} {values : List Value} :
    indexed resource table values ↔ ∀ column ∈ table.columns.zipIdx,
      (resource.fields.lookup column.1).isSome = true →
        0 < column.2 ∧ column.2 ≤ values.length := by
  constructor
  · rintro h ⟨column, i⟩ hmem
    exact h i column (List.mem_zipIdx_iff_getElem?.mp hmem)
  · intro h i column hi
    exact h (column, i) (List.mem_zipIdx_iff_getElem?.mpr hi)

/-- The fields of an indexed row are written, or RFA throws. -/
theorem writeFields_error {resource : Resource} {table : Table} {values : List Value}
    (h : indexed resource table values) (topic : Text) (calls : RowCalls) :
    ∀ e, (writeFields resource table topic values calls).1 = .error e → e = .invalidUsage := by
  have hcommon := (forEach_writeField calls.write (commonFields resource table topic) []).1
  unfold writeFields
  intro e he
  split at he
  · rename_i heq
    rw [heq] at hcommon
    exact hcommon e (by simpa using he)
  · rename_i fields _
    have hcolumns := Faults.forEach_error (f := writeColumn resource values calls.write)
      (l := table.columns.zipIdx) (s := fields) (E := (· = .invalidUsage)) (fun _ => True)
      (fun column hc fields _ => ⟨writeColumn_error (indexed_iff.mp h column hc), trivial⟩) trivial
    split at he
    · rename_i heq
      rw [heq] at hcolumns
      exact hcolumns e (by simpa using he)
    · split at he
      · cases he
      · exact (Except.error.inj he).symm

/-- Where RFA takes every field, the fields are written exactly for an indexed row. -/
theorem writeFields_ok_iff (resource : Resource) (table : Table) (values : List Value)
    {calls : RowCalls} (hwrite : ∀ n, calls.write n = true) (hcomplete : calls.complete = true)
    (topic : Text) :
    ((writeFields resource table topic values calls).1 = .ok () ↔
      indexed resource table values) ∧
    ∀ e, (writeFields resource table topic values calls).1 = .error e → e = .undefined := by
  have hcommon := (forEach_writeField calls.write (commonFields resource table topic) []).2 hwrite
  unfold writeFields
  cases hr : Faults.forEach (writeField calls.write) (commonFields resource table topic) [] with
  | mk r fields =>
    rw [hr] at hcommon
    cases hcommon
    have hiff := Faults.forEach_ok_iff (f := writeColumn resource values calls.write)
      (l := table.columns.zipIdx) (s := fields) (fun _ => True)
      (fun column _ fields _ => ⟨writeColumn_ok hwrite column fields, trivial⟩) trivial
    have hundefined := Faults.forEach_error (f := writeColumn resource values calls.write)
      (l := table.columns.zipIdx) (s := fields) (E := (· = .undefined)) (fun _ => True)
      (fun column _ fields _ => ⟨writeColumn_undefined hwrite column fields, trivial⟩) trivial
    rw [indexed_iff, ← hiff]
    simp only [hcomplete, if_true]
    cases hc : Faults.forEach (writeColumn resource values calls.write) table.columns.zipIdx
        fields with
    | mk r fields =>
      rw [hc] at hundefined
      cases r with
      | ok _ => simp
      | error e => exact ⟨by simp, fun e' he' => hundefined e' (by simpa using he')⟩

end Psych
