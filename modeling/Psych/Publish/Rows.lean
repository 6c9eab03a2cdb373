import Psych.Publish.Refresh

/-!
# One row of a refresh

The four things `SendRefresh` can do with a row (`sendRow_cases`), and what follows for a
provider that `Init` set up: an indexed row meets no other fault than an exception of RFA
(`sendRow_error`), and where RFA takes everything a mapped row is sent exactly when it is
indexed (`sendRow_ok_iff`).
-/

namespace Psych

variable {config : Config} {resource : Resource} {table : Table} {calls : Nat → RowCalls}

/-- The row was sent as `message` on the stream `i`. -/
structure Sent (config : Config) (resource : Resource) (table : Table) (calls : Nat → RowCalls)
    (row : (Text × List Value) × Nat) (s : Publish) (i : Nat) (message : Message) : Prop where
  stream : i < s.provider.streams.stream.length
  index : message.row = row.2
  permission : message.permission =
    nextManifest config resource (calls row.2).getLock row.2 s.manifest
  result : sendRow config resource table calls row s =
    ((s.provider.send i message (calls row.2).session).1,
      { s with
        provider := (s.provider.send i message (calls row.2).session).2,
        manifest := message.permission,
        handed := message :: s.handed })

/-- A row without an item is skipped; a mapped row has no stream, or its fields are not
written, or it is sent. -/
theorem sendRow_cases (config : Config) (resource : Resource) (table : Table)
    (calls : Nat → RowCalls) (row : (Text × List Value) × Nat) (s : Publish) :
    (¬ mapped resource row.1 ∧ sendRow config resource table calls row s = (.ok (), s)) ∨
    (mapped resource row.1 ∧ ¬ s.provider.Covers resource ∧
      sendRow config resource table calls row s = (.error .undefined, s)) ∨
    (mapped resource row.1 ∧ ∃ topic e,
      (writeFields resource table topic row.1.2 (calls row.2)).1 = .error e ∧
      sendRow config resource table calls row s =
        (.error e, { s with unencoded := some row.2 })) ∨
    (mapped resource row.1 ∧ ∃ topic i message,
      (writeFields resource table topic row.1.2 (calls row.2)).1 = .ok () ∧
      Sent config resource table calls row s i message) := by
  cases hitem : resource.items.lookup row.1.1 with
  | none => exact Or.inl ⟨by simp [mapped, hitem], by simp [sendRow, hitem]⟩
  | some item =>
    obtain ⟨ric, topic⟩ := item
    have hmapped : mapped resource row.1 := by simp [mapped, hitem]
    right
    cases hfind : s.provider.streams.find ric with
    | none =>
      refine Or.inl ⟨hmapped, fun hcovers => ?_, by simp [sendRow, hitem, hfind]⟩
      obtain ⟨i, stream, hsome⟩ := hcovers ric (Resource.ric_mem hitem)
      rw [hfind] at hsome
      cases hsome
    | some found =>
      obtain ⟨i, stream⟩ := found
      right
      cases hwrite : writeFields resource table topic row.1.2 (calls row.2) with
      | mk r fields =>
        cases r with
        | error e =>
          exact Or.inl ⟨hmapped, topic, e, by rw [hwrite], by simp [sendRow, hitem, hfind, hwrite]⟩
        | ok _ =>
          let message : Message :=
            { row := row.2, name := stream.rfaName, serviceName := cStr config.serviceName,
              fields := fields,
              permission :=
                nextManifest config resource (calls row.2).getLock row.2 s.manifest }
          refine Or.inr ⟨hmapped, topic, i, message, by rw [hwrite], find_lt hfind, rfl, rfl, ?_⟩
          simp [sendRow, hitem, hfind, hwrite, message]

theorem sendRow_grows (row : (Text × List Value) × Nat) (s : Publish) :
    s.provider.Grows (sendRow config resource table calls row s).2.provider ∧
      s.handed <:+ (sendRow config resource table calls row s).2.handed := by
  rcases sendRow_cases config resource table calls row s with
    ⟨_, heq⟩ | ⟨_, _, heq⟩ | ⟨_, _, e, _, heq⟩ | ⟨_, _, i, message, _, hsent⟩
  · rw [heq]
    exact ⟨.refl _, List.suffix_refl _⟩
  · rw [heq]
    exact ⟨.refl _, List.suffix_refl _⟩
  · rw [heq]
    exact ⟨.refl _, List.suffix_refl _⟩
  · rw [hsent.result]
    exact ⟨send_grows_provider i message _ _, List.suffix_cons _ _⟩

/-- A provider that `Init` set up for the resource. -/
structure Provider.Ready (p : Provider) (resource : Resource) : Prop where
  wellFormed : p.WellFormed
  covers : p.Covers resource

theorem Provider.Ready.of_grows {p q : Provider} (h : p.Grows q) (hp : p.Ready resource) :
    q.Ready resource :=
  ⟨wellFormed_of_grows h hp.wellFormed, covers_of_grows h hp.covers⟩

theorem start_ready {provider : Provider} (h : provider.Ready resource) :
    (Publish.start provider).provider.Ready resource :=
  ⟨⟨h.wellFormed.session, h.wellFormed.token⟩, h.covers⟩

theorem create_ready (sessions : Nat) {resources : List Resource} (h : resource ∈ resources) :
    (Provider.create sessions resources).Ready resource :=
  ⟨create_wellFormed sessions resources, create_covers sessions h⟩

/-- An indexed row meets no other fault than an exception of RFA. -/
theorem sendRow_error {row : (Text × List Value) × Nat} {s : Publish}
    (hready : s.provider.Ready resource)
    (hindexed : mapped resource row.1 → indexed resource table row.1.2) :
    ∀ e, (sendRow config resource table calls row s).1 = .error e → e = .invalidUsage := by
  intro e he
  rcases sendRow_cases config resource table calls row s with
    ⟨_, heq⟩ | ⟨_, hno, _⟩ | ⟨hmapped, _, e', hwrite, heq⟩ | ⟨_, _, i, message, _, hsent⟩
  · rw [heq] at he
    cases he
  · exact absurd hready.covers hno
  · rw [heq] at he
    cases he
    exact writeFields_error (hindexed hmapped) _ _ _ hwrite
  · rw [hsent.result] at he
    exact (send_error hready.wellFormed hsent.stream e he).1

/-- RFA takes every field and every message of the row. -/
structure RowCalls.Benign (calls : RowCalls) : Prop where
  write : ∀ n, calls.write n = true
  complete : calls.complete = true
  submit : ∀ i, (calls.session i).submit = true

theorem sendRow_ok_iff {row : (Text × List Value) × Nat} {s : Publish}
    (hready : s.provider.Ready resource) (hcalls : (calls row.2).Benign) :
    ((sendRow config resource table calls row s).1 = .ok () ↔
      (mapped resource row.1 → indexed resource table row.1.2)) ∧
    ∀ e, (sendRow config resource table calls row s).1 = .error e → e = .undefined := by
  rcases sendRow_cases config resource table calls row s with
    ⟨hno, heq⟩ | ⟨_, hno, _⟩ | ⟨hmapped, topic, e', hwrite, heq⟩ |
    ⟨_, topic, i, message, hwrite, hsent⟩
  · rw [heq]
    exact ⟨iff_of_true rfl fun h => absurd h hno, by simp⟩
  · exact absurd hready.covers hno
  · obtain ⟨hiff, hundefined⟩ := writeFields_ok_iff resource table row.1.2 hcalls.write
      hcalls.complete topic
    rw [hwrite] at hiff hundefined
    rw [heq]
    refine ⟨iff_of_false (by simp) fun h => ?_, hundefined⟩
    cases hiff.mpr (h hmapped)
  · obtain ⟨hiff, _⟩ := writeFields_ok_iff resource table row.1.2 hcalls.write
      hcalls.complete topic
    have hok : (s.provider.send i message (calls row.2).session).1 = .ok () := by
      cases hr : (s.provider.send i message (calls row.2).session).1 with
      | ok _ => rfl
      | error e =>
        obtain ⟨_, j, hj⟩ := send_error hready.wellFormed hsent.stream e hr
        rw [hcalls.submit j] at hj
        cases hj
    rw [hsent.result, hok]
    exact ⟨iff_of_true rfl fun _ => hiff.mp hwrite, by simp⟩

/-- Where RFA takes everything, a refresh ends without a fault exactly when all mapped rows
are indexed, and is undefined elsewhere. -/
theorem sendRefresh_benign (config : Config) (table : Table) {calls : Nat → RowCalls}
    {provider : Provider} (hready : provider.Ready resource)
    (hcalls : ∀ k, (calls k).Benign) :
    ((sendRefresh config resource table calls provider).1 = .ok () ↔
      ∀ row ∈ table.rows, mapped resource row → indexed resource table row.2) ∧
    ∀ e, (sendRefresh config resource table calls provider).1 = .error e → e = .undefined := by
  let I : Publish → Prop := fun s => s.provider.Ready resource
  have hI : I (.start provider) := start_ready hready
  have hkeep : ∀ row s, I s → I (sendRow config resource table calls row s).2 :=
    fun row s hs => hs.of_grows (sendRow_grows row s).1
  have hiff := Faults.forEach_ok_iff (f := sendRow config resource table calls)
    (l := table.rows.zipIdx) I
    (fun row _ s hs => ⟨(sendRow_ok_iff hs (hcalls row.2)).1, hkeep row s hs⟩) hI
  have hundefined := Faults.forEach_error (f := sendRow config resource table calls)
    (l := table.rows.zipIdx) (E := (· = .undefined)) I
    (fun row _ s hs => ⟨(sendRow_ok_iff hs (hcalls row.2)).2, hkeep row s hs⟩) hI
  refine ⟨hiff.trans ?_, hundefined⟩
  constructor
  · intro h row hrow
    obtain ⟨k, hk⟩ := List.mem_iff_getElem?.mp hrow
    exact h (row, k) (List.mem_zipIdx_iff_getElem?.mpr hk)
  · intro h row hrow
    exact h row.1 (List.mem_of_getElem? (List.mem_zipIdx_iff_getElem?.mp hrow))

/-- Whatever RFA does, a refresh whose mapped rows are indexed ends in no other fault than
an exception of RFA. -/
theorem sendRefresh_error {provider : Provider} (hready : provider.Ready resource)
    (hindexed : ∀ row ∈ table.rows, mapped resource row → indexed resource table row.2) :
    ∀ e, (sendRefresh config resource table calls provider).1 = .error e → e = .invalidUsage := by
  refine Faults.forEach_error (E := (· = .invalidUsage))
    (fun s : Publish => s.provider.Ready resource)
    (fun row hrow s hs => ⟨sendRow_error hs ?_, hs.of_grows (sendRow_grows row s).1⟩)
    (start_ready hready)
  exact hindexed row.1 (List.mem_of_getElem? (List.mem_zipIdx_iff_getElem?.mp hrow))

end Psych
