import Psych.Publish.Rows

/-!
# What a refresh hands over

Where RFA takes everything and every mapped row is indexed, the messages given to
`provider_t::Send` are those of the rows with an item, in order (`sendRefresh_contents`): their
content is a function of the table, the resource and the streams.
-/

namespace Psych

/-- What a subscriber sees of a message: the stream, and the fields with the engine version, the
time and the date among them. -/
structure Content where
  name : Text
  fields : List (Int × FieldData)
deriving DecidableEq

def Message.content (message : Message) : Content :=
  { name := message.name, fields := message.fields }

/-- The content of the message of a row, where the row has an item. -/
def rowContent (streams : Streams) (resource : Resource) (table : Table)
    (row : Text × List Value) : Option Content :=
  match resource.items.lookup row.1 with
  | none => none
  | some (ric, topic) =>
    (streams.find ric).map fun found =>
      { name := found.2.rfaName, fields := (writeFields resource table topic row.2 {}).2 }

/-- The contents of the messages of a table. -/
def tableContents (streams : Streams) (resource : Resource) (table : Table) : List Content :=
  table.rows.filterMap (rowContent streams resource table)

/-- A table has contents where one of its rows has an item. -/
theorem tableContents_ne_nil_iff {streams : Streams} {resource : Resource} {table : Table}
    (hcovers : ∀ ric ∈ resource.rics, ∃ i stream, streams.find ric = some (i, stream)) :
    tableContents streams resource table ≠ [] ↔ ∃ row ∈ table.rows, mapped resource row := by
  have hrow : ∀ row, (rowContent streams resource table row).isSome = true ↔
      mapped resource row := by
    intro row
    unfold rowContent mapped
    cases hitem : resource.items.lookup row.1 with
    | none => exact Iff.rfl
    | some item =>
      obtain ⟨i, stream, hfind⟩ := hcovers item.1 (Resource.ric_mem hitem)
      dsimp only
      rw [hfind]
      exact Iff.rfl
  unfold tableContents
  rw [Ne, List.filterMap_eq_nil_iff]
  simp only [not_forall, exists_prop, ← hrow, ← Option.isSome_iff_ne_none]

theorem writeFields_benign {calls : RowCalls} (h : calls.Benign) (resource : Resource)
    (table : Table) (topic : Text) (values : List Value) :
    writeFields resource table topic values calls = writeFields resource table topic values {} := by
  have hwrite : calls.write = fun _ => true := funext h.write
  unfold writeFields
  rw [hwrite, h.complete]

theorem SameStreams.symm {streams streams' : Streams} (h : SameStreams streams streams') :
    SameStreams streams' streams :=
  ⟨h.directory.symm, h.shape.symm⟩

/-- A stream is found under the same name in the streams later on. -/
theorem SameStreams.find_name {streams streams' : Streams} (h : SameStreams streams streams')
    {ric : Text} {i : Nat} {stream : ItemStream} (hfind : streams'.find ric = some (i, stream)) :
    ∃ stream', streams.find ric = some (i, stream') ∧ stream'.rfaName = stream.rfaName := by
  obtain ⟨stream', hfind', hshape⟩ := find_of_same h.symm hfind
  exact ⟨stream', hfind', congrArg Prod.fst hshape⟩

variable {config : Config} {resource : Resource} {table : Table} {calls : Nat → RowCalls}
  {streams : Streams}

/-- A row hands over its message, where it has one. -/
theorem sendRow_content {row : (Text × List Value) × Nat} {s : Publish}
    (hready : s.provider.Ready resource) (hcalls : (calls row.2).Benign)
    (hsame : SameStreams streams s.provider.streams)
    (hindexed : mapped resource row.1 → indexed resource table row.1.2) :
    (sendRow config resource table calls row s).1 = .ok () ∧
      (sendRow config resource table calls row s).2.handed.map Message.content =
        (rowContent streams resource table row.1).toList ++ s.handed.map Message.content := by
  have hok : (sendRow config resource table calls row s).1 = .ok () :=
    (sendRow_ok_iff hready hcalls).1.mpr hindexed
  refine ⟨hok, ?_⟩
  unfold sendRow at hok ⊢
  unfold rowContent
  cases hitem : resource.items.lookup row.1.1 with
  | none => rfl
  | some item =>
    obtain ⟨ric, topic⟩ := item
    rw [hitem] at hok
    dsimp only at hok ⊢
    cases hfind : s.provider.streams.find ric with
    | none =>
      rw [hfind] at hok
      cases hok
    | some found =>
      obtain ⟨i, stream⟩ := found
      obtain ⟨stream', hfind', hname⟩ := hsame.find_name hfind
      rw [hfind] at hok
      rw [hfind', ← writeFields_benign hcalls]
      dsimp only at hok ⊢
      cases hwrite : writeFields resource table topic row.1.2 (calls row.2) with
      | mk r fields =>
        rw [hwrite] at hok
        cases r with
        | error e => cases hok
        | ok _ => simp [Message.content, hname]

/-- The messages of a refresh are those of the rows with an item. -/
theorem sendRefresh_contents (config : Config) {provider : Provider} (hready : provider.Ready resource)
    (hcalls : ∀ k, (calls k).Benign) (hsame : SameStreams streams provider.streams)
    (hindexed : ∀ row ∈ table.rows, mapped resource row → indexed resource table row.2) :
    (sendRefresh config resource table calls provider).1 = .ok () ∧
      (sendRefresh config resource table calls provider).2.handed.map Message.content =
        (tableContents streams resource table).reverse ∧
      SameStreams streams (sendRefresh config resource table calls provider).2.provider.streams ∧
      (∀ r, provider.Ready r →
        (sendRefresh config resource table calls provider).2.provider.Ready r) := by
  let I : List ((Text × List Value) × Nat) → Publish → Prop := fun pre s =>
    (Publish.start provider).provider.Grows s.provider ∧
      s.handed.map Message.content =
        (pre.filterMap fun row => rowContent streams resource table row.1).reverse
  have hrow : ∀ pre row post s, table.rows.zipIdx = pre ++ row :: post → I pre s →
      (sendRow config resource table calls row s).1 = .ok () ∧
        (sendRow config resource table calls row s).2.handed.map Message.content =
          (rowContent streams resource table row.1).toList ++ s.handed.map Message.content := by
    intro pre row post s hsplit hI
    apply sendRow_content ((start_ready hready).of_grows hI.1) (hcalls row.2)
      (hsame.trans hI.1.streams)
    exact hindexed row.1 (List.mem_of_getElem? (Faults.zipIdx_split hsplit).1)
  have hrun := Faults.forEach_prefix (f := sendRow config resource table calls)
    (l := table.rows.zipIdx) (I := I) (F := fun _ _ => False)
    (fun pre row post s hsplit hI _ => by
      refine ⟨hI.1.trans (sendRow_grows row s).1, ?_⟩
      rw [(hrow pre row post s hsplit hI).2, hI.2, List.filterMap_append, List.reverse_append]
      cases hcontent : rowContent streams resource table row.1 with
      | none => simp [hcontent]
      | some content => simp [hcontent])
    (fun pre row post s e hsplit hI he => by
      rw [(hrow pre row post s hsplit hI).1] at he
      cases he)
    (s := .start provider) ⟨.refl _, rfl⟩
  unfold sendRefresh
  rcases hrun with ⟨hok, hgrows, hhanded⟩ | ⟨_, _, hfalse⟩
  · refine ⟨hok, ?_, hsame.trans hgrows.streams, ?_⟩
    · rw [hhanded]
      unfold tableContents
      conv_rhs => rw [← List.zipIdx_map_fst 0 table.rows, List.filterMap_map]
      rfl
    · intro r hr
      exact (start_ready hr).of_grows hgrows
  · exact hfalse.elim

end Psych
