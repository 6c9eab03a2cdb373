import Psych.Publish.FieldMap

/-!
# The label column

A configured field with the name of the first column has `column_idx` 0. The failed check of it is
only logged, and `row.second[column_idx-1]` is read all the same, which is undefined. On a table
whose rows all have their values `SendRefresh` is undefined exactly there, once RFA has taken the
common fields of the first row with an item and the field itself (`sendRefresh_undefined_iff`).
-/

namespace Psych

/-! ## Fields -/

theorem forEach_writeField_ok_iff (write : Nat → Bool) (entries fields : List (Int × FieldData)) :
    (Faults.forEach (writeField write) entries fields).1 = .ok () ↔
      ∀ n < entries.length, write (fields.length + n) = true := by
  induction entries generalizing fields with
  | nil => simp
  | cons entry entries ih =>
    have hsplit : (∀ n < (entry :: entries).length, write (fields.length + n) = true) ↔
        write fields.length = true ∧
          ∀ n < entries.length, write (fields.length + 1 + n) = true := by
      constructor
      · intro h
        refine ⟨h 0 (by simp), fun n hn => ?_⟩
        rw [Nat.add_assoc, Nat.add_comm 1]
        exact h (n + 1) (by simpa using hn)
      · rintro ⟨hzero, hrest⟩ n hn
        cases n with
        | zero => exact hzero
        | succ n =>
          rw [Nat.add_comm n, ← Nat.add_assoc]
          exact hrest n (by simpa using hn)
    rw [hsplit]
    by_cases hwrite : write fields.length = true
    · have hstep : writeField write entry fields = (.ok (), fields ++ [entry]) := by
        simp [writeField, hwrite]
      rw [Faults.forEach_cons_ok (by rw [hstep]), hstep, ih, List.length_append]
      exact (and_iff_right hwrite).symm
    · have hstep : writeField write entry fields = (.error .invalidUsage, fields) := by
        simp [writeField, hwrite]
      rw [Faults.forEach_cons_error (by rw [hstep])]
      exact iff_of_false (by simp) fun h => hwrite h.1

/-- With a mapped label column the fields of a row are not written: the value of the column is read
as soon as its field is bound. -/
theorem writeFields_label {resource : Resource} {table : Table} {name : Text}
    (hname : table.columns.head? = some name)
    (hfield : (resource.fields.lookup name).isSome = true) (topic : Text) (values : List Value)
    (calls : RowCalls) :
    ∃ e, (writeFields resource table topic values calls).1 = .error e ∧
      (e = .undefined ↔ ∀ n < 6, calls.write n = true) := by
  have hcommon := forEach_writeField_ok_iff calls.write (commonFields resource table topic) []
  have happends := @forEach_writeField_appends calls.write (commonFields resource table topic) []
  have herror := (forEach_writeField calls.write (commonFields resource table topic) []).1
  have hlength : (commonFields resource table topic).length = 5 := rfl
  rw [hlength] at hcommon
  simp only [List.length_nil, Nat.zero_add] at hcommon
  have hsix : (∀ n < 6, calls.write n = true) ↔
      (∀ n < 5, calls.write n = true) ∧ calls.write 5 = true := Nat.forall_lt_succ_right
  rw [hsix, ← hcommon]
  unfold writeFields
  cases hr : Faults.forEach (writeField calls.write) (commonFields resource table topic) [] with
  | mk r fields =>
    rw [hr] at herror happends
    cases r with
    | error e =>
      refine ⟨e, rfl, iff_of_false (fun he => ?_) (by simp)⟩
      have hinvalid := herror e rfl
      rw [he] at hinvalid
      cases hinvalid
    | ok _ =>
      obtain ⟨columns, hcolumns⟩ : ∃ columns, table.columns = name :: columns := by
        cases hc : table.columns with
        | nil => rw [hc] at hname; cases hname
        | cons column columns =>
          rw [hc] at hname
          cases hname
          exact ⟨columns, rfl⟩
      have hfive : fields.length = 5 := by
        rw [show fields = commonFields resource table topic from happends rfl, hlength]
      obtain ⟨fid, hfid⟩ := Option.isSome_iff_exists.mp hfield
      have hfirst : ∃ e, writeColumn resource values calls.write (name, 0) fields =
          (.error e, fields) ∧ (e = .undefined ↔ calls.write 5 = true) := by
        cases hwrite : calls.write 5 with
        | false => exact ⟨.invalidUsage, by simp [writeColumn, hfid, hfive, hwrite], by simp⟩
        | true =>
          rw [← hfive] at hwrite
          exact ⟨.undefined, writeColumn_of_write hfid hwrite, by simp⟩
      obtain ⟨e, he, hiff⟩ := hfirst
      have hloop : (Faults.forEach (writeColumn resource values calls.write)
          table.columns.zipIdx fields) = (.error e, fields) := by
        rw [hcolumns, List.zipIdx_cons, Faults.forEach_cons_error (by rw [he]), he]
      dsimp only
      rw [hloop]
      exact ⟨e, rfl, hiff.trans (and_iff_right rfl).symm⟩

/-! ## Rows -/

/-- The first row with an item. -/
def firstMapped (resource : Resource) (table : Table) : Option ((Text × List Value) × Nat) :=
  table.rows.zipIdx.find? fun row => (resource.items.lookup row.1.1).isSome

/-- The publication of the table reads before the values of a row: the first column is a configured
field, and RFA takes the five common fields of the first row with an item and the field of the
column. -/
def readsOutside (resource : Resource) (table : Table) (calls : Nat → RowCalls) : Prop :=
  (∃ name, table.columns.head? = some name ∧ (resource.fields.lookup name).isSome = true) ∧
    ∃ row, firstMapped resource table = some row ∧ ∀ n < 6, (calls row.2).write n = true

/-- With a mapped label column a mapped row ends the publication. -/
theorem sendRow_label (config : Config) {resource : Resource} {table : Table} {name : Text}
    (calls : Nat → RowCalls) {row : (Text × List Value) × Nat} {s : Publish}
    (hname : table.columns.head? = some name)
    (hfield : (resource.fields.lookup name).isSome = true) (hmapped : mapped resource row.1)
    (hready : s.provider.Ready resource) :
    ∃ e, (sendRow config resource table calls row s).1 = .error e ∧
      (e = .undefined ↔ ∀ n < 6, (calls row.2).write n = true) := by
  rcases sendRow_cases config resource table calls row s with
    ⟨hno, _⟩ | ⟨_, hno, _⟩ | ⟨_, topic, e, hwrite, heq⟩ | ⟨_, topic, i, message, hwrite, _⟩
  · exact absurd hmapped hno
  · exact absurd hready.covers hno
  · obtain ⟨e', he', hiff⟩ := writeFields_label hname hfield topic row.1.2 (calls row.2)
    rw [hwrite] at he'
    cases he'
    exact ⟨e, by rw [heq], hiff⟩
  · obtain ⟨e', he', _⟩ := writeFields_label hname hfield topic row.1.2 (calls row.2)
    rw [hwrite] at he'
    cases he'

/-- The rows before the first one with an item do nothing. -/
theorem sendRefresh_firstMapped {config : Config} {resource : Resource} {table : Table}
    {calls : Nat → RowCalls} {provider : Provider} {row : (Text × List Value) × Nat} {e : Fault}
    (hfirst : firstMapped resource table = some row)
    (he : (sendRow config resource table calls row (.start provider)).1 = .error e) :
    (sendRefresh config resource table calls provider).1 = .error e := by
  obtain ⟨_, pre, post, hsplit, hpre⟩ := List.find?_eq_some_iff_append.mp hfirst
  have hskip : ∀ row' ∈ pre, ∀ s, sendRow config resource table calls row' s = (.ok (), s) := by
    intro row' hrow' s
    have hno : ¬ mapped resource row'.1 := by
      have hnot := hpre row' hrow'
      rw [Bool.not_eq_true'] at hnot
      exact Bool.eq_false_iff.mp hnot
    rcases sendRow_cases config resource table calls row' s with
      ⟨_, heq⟩ | ⟨hm, _⟩ | ⟨hm, _⟩ | ⟨hm, _⟩
    · exact heq
    · exact absurd hm hno
    · exact absurd hm hno
    · exact absurd hm hno
  have hstart := Faults.forEach_ok (f := sendRow config resource table calls) (l := pre)
    (fun s => s = .start provider)
    (fun row' hrow' s hs => by rw [hskip row' hrow']; exact ⟨rfl, hs⟩) rfl
  unfold sendRefresh
  rw [hsplit, Faults.forEach_append]
  cases hr : Faults.forEach (sendRow config resource table calls) pre (.start provider) with
  | mk r s =>
    rw [hr] at hstart
    obtain ⟨hok, rfl⟩ := hstart
    cases hok
    dsimp only
    rw [Faults.forEach_cons_error he]

/-- The publication of a rectangular table is undefined exactly where a value is read outside. -/
theorem sendRefresh_undefined_iff {config : Config} {resource : Resource} {table : Table}
    {calls : Nat → RowCalls} {provider : Provider} (hready : provider.Ready resource)
    (hrect : table.Rectangular) :
    (sendRefresh config resource table calls provider).1 = .error .undefined ↔
      readsOutside resource table calls := by
  have hindexed : (∀ row ∈ table.rows, mapped resource row → indexed resource table row.2) →
      (sendRefresh config resource table calls provider).1 ≠ .error .undefined := by
    intro h hundefined
    cases sendRefresh_error hready h _ hundefined
  by_cases hlabel : ∃ name, table.columns.head? = some name ∧
      (resource.fields.lookup name).isSome = true
  · cases hfirst : firstMapped resource table with
    | none =>
      refine iff_of_false (hindexed fun row hrow hmapped => ?_) (by simp [readsOutside, hfirst])
      obtain ⟨k, hk⟩ := List.mem_iff_getElem?.mp hrow
      have hno := List.find?_eq_none.mp hfirst (row, k) (List.mem_zipIdx_iff_getElem?.mpr hk)
      exact absurd hmapped hno
    | some row =>
      obtain ⟨name, hname, hfield⟩ := hlabel
      have hmapped : mapped resource row.1 := (List.find?_eq_some_iff_append.mp hfirst).1
      obtain ⟨e, he, hiff⟩ := sendRow_label config calls hname hfield
        hmapped (start_ready hready)
      rw [sendRefresh_firstMapped hfirst he]
      constructor
      · intro hundefined
        exact ⟨⟨name, hname, hfield⟩, row, hfirst, hiff.mp (Except.error.inj hundefined)⟩
      · rintro ⟨_, row', hrow', hwrite⟩
        rw [hfirst] at hrow'
        cases hrow'
        rw [hiff.mpr hwrite]
  · refine iff_of_false (hindexed fun row hrow _ => ?_) fun h => hlabel h.1
    exact (indexed_rectangular hrect hrow).mpr fun name hname hfield =>
      hlabel ⟨name, hname, hfield⟩

end Psych
