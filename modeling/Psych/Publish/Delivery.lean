import Psych.Publish.Rows

/-!
# What a refresh delivers

`SendRefresh` gives each mapped row to one session after another, and the first exception of
RFA ends it. So a mapped row has reached a session unless RFA threw before
(`sendRefresh_delivered`): it was dropped if the session was muted on its turn, and is in the
history of the session otherwise (`sendRefresh_faithful`).
-/

namespace Psych

variable {config : Config} {resource : Resource} {table : Table} {calls : Nat → RowCalls}

/-- RFA threw before the `i`th session was given the row `k`, or then: when the row or one
before it was encoded, or when one of them was submitted. -/
def Publish.interrupted (s : Publish) (k i : Nat) : Prop :=
  (∃ j ≤ k, s.unencoded = some j) ∨
    ∃ turn ∈ s.provider.turns, turn.delivery = .threw ∧
      (turn.message.row < k ∨ (turn.message.row = k ∧ turn.session ≤ i))

/-- The `i`th session had its turn for the row `k`, and nothing was thrown. -/
def Publish.delivered (s : Publish) (k i : Nat) : Prop :=
  ∃ turn ∈ s.provider.turns, turn.session = i ∧ turn.message.row = k ∧ turn.delivery ≠ .threw

theorem delivered_of_gave {s : Publish} {message : Message} {k i : Nat}
    (h : s.provider.gave message i) (hk : message.row = k) : s.delivered k i := by
  obtain ⟨turn, hturn, hsession, hmessage, hdelivery⟩ := h
  exact ⟨turn, hturn, hsession, by rw [hmessage, hk], hdelivery⟩

theorem delivered_of_suffix {s t : Publish} {k i : Nat}
    (h : s.provider.turns <:+ t.provider.turns) (hs : s.delivered k i) : t.delivered k i := by
  obtain ⟨turn, hturn, hrest⟩ := hs
  exact ⟨turn, h.subset hturn, hrest⟩

/-! ## One row -/

/-- After a mapped row without a fault every session had its turn. -/
theorem sendRow_delivered {row : (Text × List Value) × Nat} {s : Publish}
    (hmapped : mapped resource row.1)
    (hok : (sendRow config resource table calls row s).1 = .ok ()) {i : Nat}
    (hi : i < s.provider.sessions.length) :
    (sendRow config resource table calls row s).2.delivered row.2 i := by
  rcases sendRow_cases config resource table calls row s with
    ⟨hno, _⟩ | ⟨_, _, heq⟩ | ⟨_, _, e, _, heq⟩ | ⟨_, _, stream, message, _, hsent⟩
  · exact absurd hmapped hno
  · rw [heq] at hok
    cases hok
  · rw [heq] at hok
    cases hok
  · rw [hsent.result] at hok ⊢
    exact delivered_of_gave (send_gave hok hi) hsent.index

/-- Where a row faults: its fields were not written, or a session threw. -/
def stoppedAt (s : Publish) (k : Nat) : Prop :=
  s.unencoded = some k ∨
    ∃ j, (∃ turn ∈ s.provider.turns, turn.delivery = .threw ∧ turn.message.row = k ∧
      turn.session = j) ∧ ∀ i < j, s.delivered k i

theorem sendRow_stopped {row : (Text × List Value) × Nat} {s : Publish} {e : Fault}
    (hready : s.provider.Ready resource)
    (he : (sendRow config resource table calls row s).1 = .error e) (hne : e ≠ .undefined) :
    stoppedAt (sendRow config resource table calls row s).2 row.2 := by
  rcases sendRow_cases config resource table calls row s with
    ⟨_, heq⟩ | ⟨_, hno, _⟩ | ⟨_, _, e', _, heq⟩ | ⟨_, _, stream, message, _, hsent⟩
  · rw [heq] at he
    cases he
  · exact absurd hready.covers hno
  · rw [heq]
    exact Or.inl rfl
  · rw [hsent.result] at he ⊢
    obtain ⟨j, hthrew, hbefore⟩ := send_threw hready.wellFormed he hne
    exact Or.inr ⟨j, ⟨_, hthrew, rfl, hsent.index, rfl⟩,
      fun i hi => delivered_of_gave (hbefore i hi) hsent.index⟩

/-! ## The refresh -/

theorem sendRefresh_grows (config : Config) (resource : Resource) (table : Table)
    (calls : Nat → RowCalls) (provider : Provider) :
    (Publish.start provider).provider.Grows
      (sendRefresh config resource table calls provider).2.provider :=
  Faults.forEach_rel (fun s t : Publish => s.provider.Grows t.provider) (fun _ => .refl _)
    (fun _ _ _ h h' => h.trans h') (fun row s => (sendRow_grows row s).1) _ _

/-- What was submitted is in the history of its session. -/
theorem sendRefresh_faithful (config : Config) (resource : Resource) (table : Table)
    (calls : Nat → RowCalls) (provider : Provider) :
    (sendRefresh config resource table calls provider).2.provider.Faithful := by
  refine Faults.forEach_invariant (fun s : Publish => s.provider.Faithful)
    (fun row _ s hs => ?_) (by simp [Provider.Faithful, Publish.start])
  rcases sendRow_cases config resource table calls row s with
    ⟨_, heq⟩ | ⟨_, _, heq⟩ | ⟨_, _, e, _, heq⟩ | ⟨_, _, stream, message, _, hsent⟩
  · rw [heq]
    exact hs
  · rw [heq]
    exact hs
  · rw [heq]
    exact hs
  · rw [hsent.result]
    exact send_faithful stream message _ hs

/-- The rows before the one where a refresh stopped were delivered, and so was that row to the
sessions before the one that threw. -/
theorem sendRefresh_prefix {provider : Provider} (hready : provider.Ready resource)
    (hne : (sendRefresh config resource table calls provider).1 ≠ .error .undefined) :
    (∀ k row, table.rows[k]? = some row → mapped resource row →
      ∀ i < provider.sessions.length,
        (sendRefresh config resource table calls provider).2.delivered k i) ∨
    ∃ stop, stoppedAt (sendRefresh config resource table calls provider).2 stop ∧
      ∀ k < stop, ∀ row, table.rows[k]? = some row → mapped resource row →
        ∀ i < provider.sessions.length,
          (sendRefresh config resource table calls provider).2.delivered k i := by
  -- the mapped rows gone through are delivered
  let I : List ((Text × List Value) × Nat) → Publish → Prop := fun pre s =>
    (Publish.start provider).provider.Grows s.provider ∧
      ∀ row ∈ pre, mapped resource row.1 → ∀ i < provider.sessions.length, s.delivered row.2 i
  let F : Fault → Publish → Prop := fun e s => e ≠ .undefined → ∃ stop, stoppedAt s stop ∧
    ∀ k < stop, ∀ row, table.rows[k]? = some row → mapped resource row →
      ∀ i < provider.sessions.length, s.delivered k i
  have hrun := Faults.forEach_prefix (f := sendRow config resource table calls)
    (l := table.rows.zipIdx) (I := I) (F := F)
    (fun pre row post s _ hI hok => by
      have hgrows : s.provider.Grows (sendRow config resource table calls row s).2.provider :=
        (sendRow_grows row s).1
      refine ⟨hI.1.trans hgrows, fun row' hrow' hmapped i hi => ?_⟩
      rcases List.mem_append.mp hrow' with hrow' | hrow'
      · exact delivered_of_suffix hgrows.turns (hI.2 row' hrow' hmapped i hi)
      · obtain rfl := List.mem_singleton.mp hrow'
        exact sendRow_delivered hmapped hok (hI.1.length ▸ hi))
    (fun pre row post s e hsplit hI he hne => by
      have hgrows : s.provider.Grows (sendRow config resource table calls row s).2.provider :=
        (sendRow_grows row s).1
      refine ⟨row.2, sendRow_stopped ((start_ready hready).of_grows hI.1) he hne, ?_⟩
      intro k hk row' hrow' hmapped i hi
      have hmem : (row', k) ∈ pre := ((Faults.zipIdx_split hsplit).2 (row', k)).mpr ⟨hk, hrow'⟩
      exact delivered_of_suffix hgrows.turns (hI.2 _ hmem hmapped i hi))
    (s := .start provider) ⟨.refl _, by simp⟩
  unfold sendRefresh at hne ⊢
  rcases hrun with ⟨_, hI⟩ | ⟨e, he, hF⟩
  · refine Or.inl fun k row hrow hmapped i hi => ?_
    exact hI.2 (row, k) (List.mem_zipIdx_iff_getElem?.mpr hrow) hmapped i hi
  · refine Or.inr (hF fun hundefined => hne ?_)
    rw [he, hundefined]

/-- A mapped row reaches every session, unless RFA throws before. -/
theorem sendRefresh_delivered {provider : Provider} (hready : provider.Ready resource)
    (hne : (sendRefresh config resource table calls provider).1 ≠ .error .undefined)
    {k : Nat} {row : Text × List Value} (hrow : table.rows[k]? = some row)
    (hmapped : mapped resource row) {i : Nat} (hi : i < provider.sessions.length) :
    (sendRefresh config resource table calls provider).2.interrupted k i ∨
      (sendRefresh config resource table calls provider).2.delivered k i := by
  rcases sendRefresh_prefix hready hne with hall | ⟨stop, hstop, hbefore⟩
  · exact Or.inr (hall k row hrow hmapped i hi)
  rcases Nat.lt_or_ge k stop with hlt | hge
  · exact Or.inr (hbefore k hlt row hrow hmapped i hi)
  rcases hstop with hunencoded | ⟨j, ⟨turn, hturn, hthrew, hindex, hsession⟩, hgiven⟩
  · exact Or.inl (Or.inl ⟨stop, hge, hunencoded⟩)
  rcases Nat.lt_or_eq_of_le hge with hlt | rfl
  · exact Or.inl (Or.inr ⟨turn, hturn, hthrew, Or.inl (hindex ▸ hlt)⟩)
  rcases Nat.lt_or_ge i j with hij | hij
  · exact Or.inr (hgiven i hij)
  · exact Or.inl (Or.inr ⟨turn, hturn, hthrew, Or.inr ⟨hindex, hsession ▸ hij⟩⟩)

end Psych
