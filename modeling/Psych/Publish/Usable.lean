import Psych.Publish.Definedness

/-!
# Usable tables

An accepted table is to have what the publisher works with: an engine version and two times of
its own body, at least two columns, and rows of the right length. Each part is checked when the
line machine reaches its line, and nothing is checked when the lines run out. A malformed column
line is rejected, but a missing one is not (`accepted_usable_iff`).
-/

namespace Psych

/-- The lines of a body; empty ones do not count. -/
def bodyLines (data : Text) : List Text := tokens "\n".toList data

/-- The version and the times are those of the first line of the body. -/
def Table.readFrom (platform : Platform) (data : Text) (table : Table) : Prop :=
  ∃ timestamp openText closeText, (bodyLines data).head? = some timestamp ∧
    timestampFields timestamp = some (table.engineVersion, openText, closeText) ∧
    table.openTime = parseTime platform openText none ∧
    table.closeTime = parseTime platform closeText none

structure Table.Usable (platform : Platform) (data : Text) (table : Table) : Prop where
  read : table.readFrom platform data
  /-- Both times are real. -/
  times : table.openTime.isSome = true ∧ table.closeTime.isSome = true
  columns : 2 ≤ table.columns.length
  rows : ∀ row ∈ table.rows, row.2.length = table.columns.length - 1

/-- The lowest byte of a magic number is its first character. -/
theorem fourcc_low (a b c d : Char) : (fourcc a b c d).setWidth 8 = BitVec.ofNat 8 a.toNat := by
  unfold fourcc
  apply BitVec.eq_of_getLsbD_eq
  intro i hi
  have h16 : i < 16 := by omega
  have h24 : i < 24 := by omega
  have h32 : i < 32 := by omega
  simp only [BitVec.getLsbD_setWidth, BitVec.getLsbD_or, BitVec.getLsbD_shiftLeft,
    BitVec.getLsbD_signExtend, hi, h16, h24, h32]
  simp

/-- A body that begins with the magic number has a line. -/
theorem bodyLines_ne_nil {config : Config} {contentType data : Text}
    (h : admissible config contentType data = true) : bodyLines data ≠ [] := by
  unfold admissible at h
  simp only [Bool.and_eq_true, beq_iff_eq] at h
  have hfirst : BitVec.ofNat 8 (data.getD 0 '\x00').toNat = 35#8 := by
    rw [← fourcc_low _ (data.getD 1 '\x00') (data.getD 2 '\x00') (data.getD 3 '\x00')]
    change (magic data).setWidth 8 = 35#8
    rw [h.2]
    decide
  cases data with
  | nil =>
    revert hfirst
    decide
  | cons c data =>
    have hc : c ≠ '\n' := by
      rintro rfl
      rw [List.getD_cons_zero] at hfirst
      revert hfirst
      decide
    unfold bodyLines tokens
    rw [List.length_cons, tokensWithin, quickGetNext]
    simp [hc]

theorem columnNames_length (timestamp : Text) {header : Text} (lines : List Text)
    (h : '\t' ∈ header) : 2 ≤ (columnNames (timestamp :: header :: lines)).length := by
  have hcount := List.count_pos_iff.mpr h
  rw [columnNames, length_splitString]
  omega

/-- The table of an accepted response is usable exactly when its body goes on to the column
line. -/
theorem accepted_usable_iff (platform : Platform) (config : Config) (transfer : Transfer)
    (connection : Connection) (stats : Stats) (engineVersion : Text)
    (haccepted : (respond platform config transfer connection stats engineVersion).1 = .ok true) :
    ((respond platform config transfer connection stats engineVersion).2.table).Usable platform
        connection.data ↔
      2 ≤ (bodyLines connection.data).length := by
  obtain ⟨⟨_, ⟨contentType, _, hadmissible⟩, _⟩, _⟩ :=
    (respond_accepts_iff platform config transfer connection stats engineVersion).mp haccepted
  have hne := bodyLines_ne_nil hadmissible
  obtain ⟨htable, hbody⟩ := respond_table haccepted
  rw [htable, scannedTable_eq engineVersion hbody]
  unfold tableAccepted at hbody
  change bodyLines connection.data ≠ [] at hne
  unfold bodyLines at hne ⊢
  cases hlines : tokens "\n".toList connection.data with
  | nil => exact absurd hlines hne
  | cons timestamp lines =>
    rw [hlines] at hbody
    cases lines with
    | nil =>
      refine iff_of_false (fun h => ?_) (by simp)
      have hcolumns : 2 ≤ ([] : List Text).length := h.columns
      simp at hcolumns
    | cons header lines =>
      rw [linesAccepted, Bool.and_eq_true, List.contains_iff_mem] at hbody
      refine iff_of_true ?_ (by simp)
      have hreads := hbody.1
      unfold readsTimestamp at hreads
      cases hfields : timestampFields timestamp with
      | none =>
        rw [hfields] at hreads
        cases hreads
      | some fields =>
        obtain ⟨version, openText, closeText⟩ := fields
        rw [hfields, Bool.and_eq_true] at hreads
        refine ⟨⟨timestamp, openText, closeText, ?_, ?_, ?_, ?_⟩, ?_,
          columnNames_length timestamp lines hbody.2, fun row hrow => ?_⟩
        · rw [bodyLines, hlines]
          rfl
        · rw [hfields, tableOf, lineVersion_of_fields hfields]
        · rw [tableOf, lineTimes_of_fields hfields]
        · rw [tableOf, lineTimes_of_fields hfields]
        · rw [tableOf, lineTimes_of_fields hfields]
          exact hreads
        · have hlength := tableRows_length hrow
          change row.2.length = (columnNames (timestamp :: header :: lines)).length - 1
          omega

theorem sample_usable :
    ((respond boostPlatform sampleConfig sampleTransfer (sampleConnection sampleResource)
      (fun _ => 0) []).2.table).Usable boostPlatform sampleBody := by
  have haccepted := (respond_accepts_iff _ _ _ _ (fun _ => 0) []).mpr
    (sample_accepts sampleResource)
  have husable := accepted_usable_iff boostPlatform sampleConfig sampleTransfer
    (sampleConnection sampleResource) (fun _ => 0) [] haccepted
  rw [sampleConnection_data] at husable
  exact husable.mpr sample_evaluated.2.2.2.1

/-- The connection of a response that ends after its timestamp line. -/
def truncatedConnection : Connection :=
  { sampleConnection sampleResource with data := sampleBody.take 85 }

/-- A body without a column line is accepted, with a table that has no columns. -/
theorem column_line_missing :
    (respond boostPlatform sampleConfig sampleTransfer truncatedConnection (fun _ => 0) []).1 =
        .ok true ∧
      ¬ ((respond boostPlatform sampleConfig sampleTransfer truncatedConnection (fun _ => 0)
        []).2.table).Usable boostPlatform truncatedConnection.data := by
  have haccepted : (respond boostPlatform sampleConfig sampleTransfer truncatedConnection
      (fun _ => 0) []).1 = .ok true := by
    unfold truncatedConnection
    rw [sampleBody_eq]
    decide +kernel
  refine ⟨haccepted, fun h => ?_⟩
  have hlines := (accepted_usable_iff boostPlatform sampleConfig sampleTransfer
    truncatedConnection (fun _ => 0) [] haccepted).mp h
  unfold truncatedConnection at hlines
  rw [sampleBody_eq] at hlines
  exact absurd hlines (by decide +kernel)

end Psych
