import Psych.Model.Sample
import Psych.Publish.Rows

/-!
# Permission data

With a DACS id configured, every message is to carry the lock of its own row. A row whose
lock is not generated is sent nevertheless, with no permission data or with that of an
earlier row, whose buffer is gone. So permissioning fails closed exactly when every row with
an item generates its lock and has its values (`failsClosed_iff`): once a value is read outside
the row, nothing is known of what is sent.
-/

namespace Psych

/-- The lock for the entitlement code of a resource. -/
def lockOf (config : Config) (resource : Resource) : AuthorizationLock where
  serviceId := atol config.dacsId
  peList := [resource.entitlementCode]

/-- The message carries the lock that was generated for its row. -/
def locked (config : Config) (resource : Resource) (getLock : Nat → Bool) (message : Message) :
    Prop :=
  getLock message.row = true ∧
    message.permission = some { row := message.row, lock := lockOf config resource }

/-- With a DACS id, and with the outcomes `getLock` of the locks: whatever else happens no message is
sent without the lock of its row, and what a provider that `Init` set up does is defined. -/
def FailsClosed (config : Config) (resource : Resource) (table : Table) (getLock : Nat → Bool) :
    Prop :=
  config.dacsId ≠ [] → ∀ (provider : Provider) (calls : Nat → RowCalls),
    (∀ k, (calls k).getLock = getLock k) →
      (∀ message ∈ (sendRefresh config resource table calls provider).2.handed,
        locked config resource getLock message) ∧
      (provider.Ready resource →
        (sendRefresh config resource table calls provider).1 ≠ .error .undefined)

/-- Every row with an item generates its lock, and has the values of its columns. -/
def locksGenerated (resource : Resource) (table : Table) (getLock : Nat → Bool) : Prop :=
  ∀ k row, table.rows[k]? = some row → mapped resource row →
    indexed resource table row.2 ∧ getLock k = true

variable {config : Config} {resource : Resource} {table : Table} {calls : Nat → RowCalls}

theorem nextManifest_of_lock (hdacs : config.dacsId ≠ []) (row : Nat)
    (manifest : Option Permission) :
    nextManifest config resource true row manifest =
      some { row := row, lock := lockOf config resource } := by
  simp [nextManifest, generatePELock, lockOf, hdacs]

/-- A row hands over nothing, or a message with its lock. -/
theorem sendRow_locked (hdacs : config.dacsId ≠ []) {getLock : Nat → Bool}
    (hcalls : ∀ k, (calls k).getLock = getLock k)
    (hlocks : locksGenerated resource table getLock) {row : (Text × List Value) × Nat}
    (hrow : row ∈ table.rows.zipIdx) {s : Publish}
    (hs : ∀ message ∈ s.handed, locked config resource getLock message) :
    ∀ message ∈ (sendRow config resource table calls row s).2.handed,
      locked config resource getLock message := by
  rcases sendRow_cases config resource table calls row s with
    ⟨_, heq⟩ | ⟨_, _, heq⟩ | ⟨_, _, e, _, heq⟩ | ⟨hmapped, _, i, message, _, hsent⟩
  · rw [heq]
    exact hs
  · rw [heq]
    exact hs
  · rw [heq]
    exact hs
  · have hlock := (hlocks row.2 row.1 (List.mem_zipIdx_iff_getElem?.mp hrow) hmapped).2
    have hperm := hsent.permission
    rw [hcalls, hlock, nextManifest_of_lock hdacs, ← hsent.index] at hperm
    rw [hsent.result]
    intro m hm
    rcases List.mem_cons.mp hm with rfl | hm
    · exact ⟨by rw [hsent.index]; exact hlock, hperm⟩
    · exact hs m hm

/-- The messages handed over are locked, where the rows with an item generate their locks. -/
theorem handed_locked (hdacs : config.dacsId ≠ []) {getLock : Nat → Bool}
    (hcalls : ∀ k, (calls k).getLock = getLock k)
    (hlocks : locksGenerated resource table getLock) (provider : Provider) :
    ∀ message ∈ (sendRefresh config resource table calls provider).2.handed,
      locked config resource getLock message := by
  refine Faults.forEach_invariant
    (fun s : Publish => ∀ message ∈ s.handed, locked config resource getLock message)
    (fun row hrow s hs => sendRow_locked hdacs hcalls hlocks hrow hs) ?_
  intro message hmessage
  cases hmessage

/-- Where RFA takes everything and no value is read outside, every row with an item is handed over. -/
theorem handed_of_mapped (config : Config) (calls : Nat → RowCalls) {k : Nat}
    {row : Text × List Value} (hrow : table.rows[k]? = some row) (hmapped : mapped resource row)
    (hindexed : ∀ row ∈ table.rows, mapped resource row → indexed resource table row.2)
    {provider : Provider} (hready : provider.Ready resource) (hcalls : ∀ k, (calls k).Benign) :
    ∃ message ∈ (sendRefresh config resource table calls provider).2.handed, message.row = k := by
  have hok := (sendRefresh_benign config table hready hcalls).1.mpr hindexed
  have hcovers := Faults.forEach_covers (f := sendRow config resource table calls)
    (l := table.rows.zipIdx) (s := .start provider)
    (P := fun row s => mapped resource row.1 → ∃ message ∈ s.handed, message.row = row.2)
    (fun row row' s hP hm => ?_) (fun row s hok hm => ?_) hok
  · exact hcovers (row, k) (List.mem_zipIdx_iff_getElem?.mpr hrow) hmapped
  · obtain ⟨message, hmem, hindex⟩ := hP hm
    exact ⟨message, (sendRow_grows row' s).2.subset hmem, hindex⟩
  · rcases sendRow_cases config resource table calls row s with
      ⟨hno, _⟩ | ⟨_, _, heq⟩ | ⟨_, _, _, _, heq⟩ | ⟨_, _, i, message, _, hsent⟩
    · exact absurd hm hno
    · rw [heq] at hok
      cases hok
    · rw [heq] at hok
      cases hok
    · refine ⟨message, ?_, hsent.index⟩
      rw [hsent.result]
      exact List.mem_cons_self

/-- Permissioning fails closed exactly when every row with an item generates its lock and has its
values. -/
theorem failsClosed_iff (config : Config) (resource : Resource) (table : Table)
    (getLock : Nat → Bool) :
    FailsClosed config resource table getLock ↔
      (config.dacsId ≠ [] → locksGenerated resource table getLock) := by
  constructor
  · intro h hdacs
    have hready := create_ready 1 (List.mem_singleton_self resource)
    have hbenign : ∀ k, ((fun k => { getLock := getLock k } : Nat → RowCalls) k).Benign :=
      fun _ => ⟨fun _ => rfl, rfl, fun _ => rfl⟩
    obtain ⟨hlocked, hdefined⟩ := h hdacs (.create 1 [resource])
      (fun k => { getLock := getLock k }) fun _ => rfl
    obtain ⟨hiff, hundefined⟩ := sendRefresh_benign config table hready hbenign
    have hindexed : ∀ row ∈ table.rows, mapped resource row → indexed resource table row.2 := by
      apply hiff.mp
      cases hr : (sendRefresh config resource table (fun k => { getLock := getLock k })
          (.create 1 [resource])).1 with
      | ok _ => rfl
      | error e => exact absurd (hundefined e hr ▸ hr) (hdefined hready)
    intro k row hrow hmapped
    refine ⟨hindexed row (List.mem_of_getElem? hrow) hmapped, ?_⟩
    obtain ⟨message, hmem, hk⟩ := handed_of_mapped config _ hrow hmapped hindexed hready hbenign
    exact hk ▸ (hlocked message hmem).1
  · intro h hdacs provider calls hcalls
    refine ⟨handed_locked hdacs hcalls (h hdacs) provider, fun hready hundefined => ?_⟩
    have hindexed : ∀ row ∈ table.rows, mapped resource row → indexed resource table row.2 := by
      intro row hrow hmapped
      obtain ⟨k, hk⟩ := List.mem_iff_getElem?.mp hrow
      exact (h hdacs k row hk hmapped).1
    cases sendRefresh_error hready hindexed _ hundefined

/-- A resource with two items. -/
def twoItems : Resource :=
  { sampleResource with items := [("a".toList, "A".toList, []), ("b".toList, "B".toList, [])] }

def twoRows : Table where
  columns := ["Sector".toList, "Buzz".toList]
  rows := [("a".toList, [.real 1]), ("b".toList, [.real 2])]

/-- The lock of the second row is not generated: the row goes out with the lock in the buffer
of the first one. -/
theorem second_row_sent_with_stale_lock :
    ¬ FailsClosed { sampleConfig with dacsId := "4000".toList } twoItems twoRows
      (fun k => decide (k = 0)) := by
  intro h
  have hlocked := (h (by decide) (.create 1 [twoItems]) (fun k => { getLock := decide (k = 0) })
    fun _ => rfl).1
  have hhanded : (sendRefresh { sampleConfig with dacsId := "4000".toList } twoItems twoRows
      (fun k => { getLock := decide (k = 0) }) (.create 1 [twoItems])).2.handed.map
        (fun message => (message.row, message.permission.map Permission.row)) =
      [(1, some 0), (0, some 0)] := by decide
  obtain ⟨message, hmem, hrow⟩ := List.mem_map.mp
    (hhanded ▸ List.mem_cons_self : (1, some 0) ∈ _)
  have hone : message.row = 1 := congrArg Prod.fst hrow
  have hfalse := (hlocked message hmem).1
  rw [hone] at hfalse
  cases hfalse

end Psych
